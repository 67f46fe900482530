import VouchSpec.Access.Effects
import VouchSpec.Commerce.Standard
import Mathlib.Data.List.Dedup

/-! Revoked and superseded credentials stay so. The store keeps digests only;
that each digest belongs to the key or token issued last is what a session's
log shows, as long as no two MAC inputs of the session collide. -/

namespace VouchSpec

open Access

namespace Session

variable {p : Platform} {keyring : Keyring} {session : Session} {call : Call}

theorem macs_append (log more : List Entry) :
    macs p keyring (log ++ more) = macs p keyring log ++ macs p keyring more := by
  simp [macs]

theorem issuedKeys_snoc (log : List Entry) (entry : Entry) :
    issuedKeys (log ++ [entry]) = issuedKeys log ++ entry.issued?.toList := by
  cases hIssued : entry.issued? <;> simp [issuedKeys, hIssued]

theorem currentKey?_issued {log : List Entry} {entry : Entry} {tenantId apiKey : String}
    (hIssued : entry.issued? = some (tenantId, apiKey)) :
    currentKey? (log ++ [entry]) tenantId = some apiKey := by
  simp [currentKey?, issuedKeys_snoc, hIssued]

theorem currentKey?_other {log : List Entry} {entry : Entry} {tenantId : String}
    (hOther : ∀ apiKey, entry.issued? ≠ some (tenantId, apiKey)) :
    currentKey? (log ++ [entry]) tenantId = currentKey? log tenantId := by
  cases hIssued : entry.issued? with
  | none => simp [currentKey?, issuedKeys_snoc, hIssued]
  | some issued =>
      obtain ⟨issuedTo, apiKey⟩ := issued
      have hDifferent : issuedTo ≠ tenantId := by
        rintro rfl
        exact hOther apiKey hIssued
      simp [currentKey?, issuedKeys_snoc, hIssued, hDifferent]

theorem mem_issuedKeys_of_currentKey? {log : List Entry} {tenantId apiKey : String}
    (hCurrent : currentKey? log tenantId = some apiKey) : (tenantId, apiKey) ∈ issuedKeys log := by
  simp only [currentKey?, Option.map_eq_some_iff] at hCurrent
  obtain ⟨⟨issuedTo, key⟩, hFound, rfl⟩ := hCurrent
  have hTenant := List.find?_some hFound
  simp only [decide_eq_true_eq] at hTenant
  exact hTenant ▸ List.mem_reverse.mp (List.mem_of_find?_eq_some hFound)

/-- A returning call is one of the stores, or reads only. -/
theorem serve_cases {shop after : Shop} {reply : Reply}
    (hServe : serve p keyring shop call = .ok (after, reply)) :
    (∃ storeCall event, reply = .event event ∧ shop.perform p keyring storeCall = .ok (after, event) ∧
        (∀ outcome, Entry.macs p keyring ⟨shop, call, outcome⟩ = storeMacs p keyring shop storeCall) ∧
        ∀ change, call = .commit change → storeCall = change.commit) ∨
      (after = shop ∧ ∀ event, reply ≠ .event event) := by
  cases call with
  | store storeCall =>
      simp only [serve, Except.bind_eq_ok_iff, Except.pure_eq_ok_iff, Prod.mk.injEq,
        Prod.exists] at hServe
      obtain ⟨_, event, hRun, rfl, rfl⟩ := hServe
      exact Or.inl ⟨storeCall, event, rfl, hRun, fun _ => rfl, by simp⟩
  | commit change =>
      simp only [serve, Except.bind_eq_ok_iff, Except.pure_eq_ok_iff, Prod.mk.injEq,
        Prod.exists] at hServe
      obtain ⟨_, event, hRun, rfl, rfl⟩ := hServe
      refine Or.inl ⟨change.commit, event, rfl, hRun, fun _ => rfl, ?_⟩
      rintro other h
      obtain rfl := Call.commit.inj h
      rfl
  | authorizeChange revokes tenantId orderId token updatedAt utcNow =>
      simp only [serve, Except.bind_eq_ok_iff, Except.pure_eq_ok_iff, Prod.mk.injEq,
        Prod.exists] at hServe
      obtain ⟨_, _, -, rfl, rfl⟩ := hServe
      exact Or.inr ⟨rfl, by simp⟩
  | authenticateApiKey apiKey =>
      simp only [serve, Except.bind_eq_ok_iff, Except.pure_eq_ok_iff, Prod.mk.injEq] at hServe
      obtain ⟨_, -, rfl, rfl⟩ := hServe
      exact Or.inr ⟨rfl, by simp⟩
  | authorizeOrder tenantId orderId token now utcNow =>
      simp only [serve, Except.bind_eq_ok_iff, Except.pure_eq_ok_iff, Prod.mk.injEq] at hServe
      obtain ⟨_, -, rfl, rfl⟩ := hServe
      exact Or.inr ⟨rfl, by simp⟩

/-- What the log shows of the digests in the store. -/
structure Tracked (p : Platform) (keyring : Keyring) (session : Session) : Prop where
  wellFormed : session.shop.WellFormed p keyring
  keys : ∀ {tenantId row}, session.shop.access.tenant? tenantId = some row → ∃ apiKey,
    currentKey? session.log tenantId = some apiKey ∧ row.apiKeyDigest = apiDigest p keyring apiKey
  issued : ∀ issued ∈ issuedKeys session.log,
    (∃ drawn, issued.2 = apiKeyOf session.shop.commerce.environment drawn) ∧
      apiInput keyring issued.2 ∈ macs p keyring session.log
  revoked : ∀ entry ∈ session.log, ∀ tenantId, entry.Revokes tenantId →
    ∃ row, session.shop.access.tenant? tenantId = some row ∧ row.state = .revoked
  tokens : ∀ {orderId row}, session.shop.access.orderBinding? orderId = some row →
    tokenMacs p keyring session.shop.commerce.environment row.tenantId orderId row.tokenVersion ⊆
      macs p keyring session.log
  pending : ∀ change ∈ session.pending, validToken change.ticket.token = true

theorem start_tracked (environment : Environment) : Tracked p keyring (start environment) where
  wellFormed := Shop.empty_wellFormed environment
  keys h := by cases h
  issued := by simp [start, issuedKeys]
  revoked := by simp [start]
  tokens h := by cases h
  pending := by simp [start]

/-- A change that has passed its check has a well-formed token. -/
theorem serve_authorized {shop after : Shop} {change : Shop.Change}
    (hServe : serve p keyring shop call = .ok (after, .authorized change)) :
    validToken change.ticket.token = true := by
  cases call with
  | authorizeChange revokes tenantId orderId token updatedAt utcNow =>
      simp only [serve, Except.bind_eq_ok_iff, Except.pure_eq_ok_iff, Prod.mk.injEq, Prod.exists,
        Reply.authorized.injEq] at hServe
      obtain ⟨_, _, hRun, -, rfl⟩ := hServe
      unfold authorizeChange at hRun
      simp only [Except.bind_eq_ok_iff, Except.pure_eq_ok_iff] at hRun
      obtain ⟨_, -, _, hAuthorized, -⟩ := hRun
      exact (authorizeOrder_eq_ok.mp hAuthorized).2.1
  | _ => simp [serve] at hServe

theorem pendingAfter_valid {shop : Shop} {pending : List Shop.Change}
    (hPending : ∀ change ∈ pending, validToken change.ticket.token = true) :
    ∀ change ∈ pendingAfter pending call (serve p keyring shop call),
      validToken change.ticket.token = true := by
  intro change hChange
  unfold pendingAfter at hChange
  split at hChange
  · exact hPending change (List.mem_of_mem_erase hChange)
  · next hOutcome =>
      rcases List.mem_append.mp hChange with hOld | hNew
      · exact hPending change hOld
      · obtain rfl := List.mem_singleton.mp hNew
        exact serve_authorized hOutcome
  · exact hPending change hChange

/-- A call extends what the log shows when it accounts for each new digest. -/
theorem Tracked.extend (tracked : Tracked p keyring session) {after : Shop} {entry : Entry}
    {pending : List Shop.Change} (hWellFormed : after.WellFormed p keyring)
    (continues : session.shop.Continues after)
    (hKeys : ∀ {tenantId row}, after.access.tenant? tenantId = some row →
      (∃ apiKey, entry.issued? = some (tenantId, apiKey) ∧ row.apiKeyDigest = apiDigest p keyring apiKey) ∨
      ((∀ apiKey, entry.issued? ≠ some (tenantId, apiKey)) ∧
        ∃ old, session.shop.access.tenant? tenantId = some old ∧ row.apiKeyDigest = old.apiKeyDigest))
    (hIssued : ∀ issued, entry.issued? = some issued →
      (∃ drawn, issued.2 = apiKeyOf session.shop.commerce.environment drawn) ∧
        apiInput keyring issued.2 ∈ entry.macs p keyring)
    (hRevoked : ∀ tenantId, entry.Revokes tenantId →
      ∃ row, after.access.tenant? tenantId = some row ∧ row.state = .revoked)
    (hTokens : ∀ {orderId row}, after.access.orderBinding? orderId = some row →
      (∃ old, session.shop.access.orderBinding? orderId = some old ∧
        old.tokenVersion = row.tokenVersion ∧ old.tenantId = row.tenantId) ∨
      tokenMacs p keyring session.shop.commerce.environment row.tenantId orderId row.tokenVersion ⊆
        entry.macs p keyring)
    (hPending : ∀ change ∈ pending, validToken change.ticket.token = true) :
    Tracked p keyring { shop := after, pending, log := session.log ++ [entry] } where
  wellFormed := hWellFormed
  keys {tenantId row} hRow := by
    rcases hKeys hRow with ⟨apiKey, hNew, hDigest⟩ | ⟨hNone, old, hOld, hDigest⟩
    · exact ⟨apiKey, currentKey?_issued hNew, hDigest⟩
    · obtain ⟨apiKey, hCurrent, hStored⟩ := tracked.keys hOld
      exact ⟨apiKey, (currentKey?_other hNone).trans hCurrent, hDigest.trans hStored⟩
  issued issued hMember := by
    rw [issuedKeys_snoc, List.mem_append] at hMember
    rw [macs_append, List.mem_append, continues.commerce.environment]
    rcases hMember with hOld | hNew
    · obtain ⟨hForm, hMac⟩ := tracked.issued issued hOld
      exact ⟨hForm, Or.inl hMac⟩
    · obtain ⟨hForm, hMac⟩ := hIssued issued (Option.mem_toList.mp hNew)
      exact ⟨hForm, Or.inr (by simpa [macs] using hMac)⟩
  revoked made hMade tenantId hRevokes := by
    rcases List.mem_append.mp hMade with hOld | hNew
    · obtain ⟨row, hRow, hState⟩ := tracked.revoked made hOld tenantId hRevokes
      obtain ⟨later, hLater, keeps⟩ := continues.access.tenants hRow
      exact ⟨later, hLater, keeps.revoked hState ▸ hState⟩
    · obtain rfl := List.mem_singleton.mp hNew
      exact hRevoked tenantId hRevokes
  tokens {orderId row} hRow := by
    rw [macs_append, continues.commerce.environment]
    rcases hTokens hRow with ⟨old, hOld, hVersion, hTenant⟩ | hNew
    · have hSubset := tracked.tokens hOld
      rw [hVersion, hTenant] at hSubset
      exact fun input hInput => List.mem_append_left _ (hSubset hInput)
    · intro input hInput
      refine List.mem_append_right _ ?_
      simpa [macs] using hNew hInput
  pending := hPending

/-- A call that leaves the file as it is shows nothing new. -/
theorem Tracked.quiet (tracked : Tracked p keyring session) {entry : Entry}
    {pending : List Shop.Change} (hIssued : entry.issued? = none)
    (hRevokes : ∀ tenantId, ¬entry.Revokes tenantId)
    (hPending : ∀ change ∈ pending, validToken change.ticket.token = true) :
    Tracked p keyring { shop := session.shop, pending, log := session.log ++ [entry] } := by
  apply tracked.extend tracked.wellFormed (.refl _) _ _ _ _ hPending
  · intro tenantId row hRow
    exact Or.inr ⟨by simp [hIssued], row, hRow, rfl⟩
  · intro issued h
    rw [hIssued] at h
    cases h
  · intro tenantId h
    exact absurd h (hRevokes tenantId)
  · intro orderId row hRow
    exact Or.inl ⟨row, hRow, rfl, rfl⟩

/-- Every call continues the file. -/
theorem step_continues (tracked : Tracked p keyring session) (call : Call) :
    session.shop.Continues (session.step p keyring call).shop := by
  unfold step
  split
  · cases hServe : serve p keyring session.shop call with
    | error raised =>
        simp only [Entry.after, entry, hServe]
        exact .refl _
    | ok result =>
        simp only [Entry.after, entry, hServe]
        rcases serve_cases hServe with ⟨_, _, -, hRun, -⟩ | ⟨hSame, -⟩
        · exact (Shop.perform_wellFormed_continues tracked.wellFormed hRun).2
        · rw [hSame]
          exact .refl _
  · exact .refl _

theorem step_tracked (tracked : Tracked p keyring session) (call : Call) :
    Tracked p keyring (session.step p keyring call) := by
  unfold step
  split
  · have hPending : ∀ change ∈ pendingAfter session.pending call (session.entry p keyring call).outcome,
        validToken change.ticket.token = true := pendingAfter_valid tracked.pending
    cases hServe : serve p keyring session.shop call with
    | error raised =>
        have hAfter : (session.entry p keyring call).after = session.shop := by
          simp [Entry.after, entry, hServe]
        rw [hAfter]
        apply tracked.quiet _ _ hPending
        · simp [Entry.issued?, entry, hServe]
        · simp [Entry.Revokes, Entry.Returns, entry, hServe]
    | ok result =>
        obtain ⟨after, reply⟩ := result
        have hAfter : (session.entry p keyring call).after = after := by
          simp [Entry.after, entry, hServe]
        rw [hAfter]
        rcases serve_cases hServe with ⟨storeCall, event, rfl, hRun, hMacs, -⟩ | ⟨rfl, hReads⟩
        · obtain ⟨hWellFormed, continues⟩ := Shop.perform_wellFormed_continues tracked.wellFormed hRun
          apply tracked.extend hWellFormed continues _ _ _ _ hPending
          · intro tenantId row hRow
            rcases Shop.perform_key hRun hRow with ⟨drawn, rfl, hDigest⟩ | ⟨hNone, old⟩
            · exact Or.inl ⟨_, by simp [Entry.issued?, entry, hServe], hDigest⟩
            · refine Or.inr ⟨?_, old⟩
              intro apiKey hIssued
              cases event <;> simp [Entry.issued?, entry, hServe] at hIssued
              exact hNone apiKey (by rw [hIssued.1, hIssued.2])
          · rintro ⟨tenantId, apiKey⟩ hIssued
            cases event <;> simp [Entry.issued?, entry, hServe] at hIssued
            obtain ⟨rfl, rfl⟩ := hIssued
            obtain ⟨hForm, hMac⟩ := Shop.perform_keyIssued hRun
            exact ⟨hForm, (hMacs _).symm ▸ hMac⟩
          · intro tenantId hRevokes
            simp only [Entry.Revokes, Entry.Returns, hAfter] at hRevokes
            simp only [entry, hServe, Except.ok.injEq, Prod.mk.injEq, Reply.event.injEq] at hRevokes
            exact Shop.perform_tenantRevoked (hRevokes.2 ▸ hRun)
          · intro orderId row hRow
            rcases Shop.perform_token hRun hRow with hOld | hNew
            · exact Or.inl hOld
            · exact Or.inr ((hMacs _).symm ▸ hNew)
        · apply tracked.quiet _ _ hPending
          · cases reply with
            | event event => exact absurd rfl (hReads event)
            | _ => simp [Entry.issued?, entry, hServe]
          · intro tenantId hRevokes
            simp only [Entry.Revokes, Entry.Returns, hAfter] at hRevokes
            simp only [entry, hServe, Except.ok.injEq, Prod.mk.injEq] at hRevokes
            exact hReads _ hRevokes.2
  · exact tracked

/-- Among inputs without collision, an API key's digest names the key. -/
theorem apiKey_of_digest {log : List Entry} (hFree : CollisionFree p keyring log) {left right : String}
    (hLeft : apiInput keyring left ∈ macs p keyring log)
    (hRight : apiInput keyring right ∈ macs p keyring log) (hLeftKey : Pattern.apiKey left = true)
    (hRightKey : Pattern.apiKey right = true)
    (hSame : apiDigest p keyring left = apiDigest p keyring right) : left = right := by
  have hInput := hFree _ hLeft _ hRight hSame
  have hParts := (macInput_inj (by simp) (by simp) (by simpa using isPart_apiKey hLeftKey)
    (by simpa using isPart_apiKey hRightKey) hInput).2.2
  exact List.singleton_inj.mp hParts

/-- A key authenticates exactly while it is the current key of an active tenant. -/
theorem Tracked.authenticates (tracked : Tracked p keyring session) {apiKey tenantId : String}
    (hFree : CollisionFree p keyring
      (session.log ++ [session.entry p keyring (.authenticateApiKey apiKey)])) :
    session.shop.access.authenticateApiKey p keyring session.shop.commerce apiKey = .ok tenantId ↔
      currentKey? session.log tenantId = some apiKey ∧ session.shop.access.Active tenantId := by
  rw [authenticateApiKey_eq_ok]
  constructor
  · rintro ⟨hValid, row, hRow, hDigest, hState⟩
    obtain ⟨current, hCurrent, hStored⟩ := tracked.keys hRow
    obtain ⟨⟨drawn, hForm⟩, hMac⟩ := tracked.issued _ (mem_issuedKeys_of_currentKey? hCurrent)
    obtain rfl : current = _ := hForm
    have hSame : apiKeyOf session.shop.commerce.environment drawn = apiKey := by
      apply apiKey_of_digest hFree _ _ _ _ (hStored.symm.trans hDigest)
      · rw [macs_append]
        exact List.mem_append_left _ hMac
      · rw [macs_append]
        refine List.mem_append_right _ ?_
        simp [macs, Entry.macs, entry, presented, hValid]
      · exact apiKey_apiKeyOf _ _
      · simp only [validApiKey, Bool.and_eq_true] at hValid
        exact hValid.1.2
    exact ⟨hSame ▸ hCurrent, active_iff.mpr ⟨row, hRow, hState⟩⟩
  · rintro ⟨hCurrent, hActive⟩
    obtain ⟨row, hRow, hState⟩ := active_iff.mp hActive
    obtain ⟨current, hKey, hDigest⟩ := tracked.keys hRow
    obtain rfl := Option.some.inj (hKey.symm.trans hCurrent)
    obtain ⟨⟨drawn, hForm⟩, -⟩ := tracked.issued _ (mem_issuedKeys_of_currentKey? hCurrent)
    obtain rfl : current = _ := hForm
    exact ⟨validApiKey_apiKeyOf _ _, row, hRow, hDigest, hState⟩

/-- A spent key is not the current key of an active tenant. -/
theorem Tracked.keySpent (tracked : Tracked p keyring session) {apiKey tenantId : String}
    (hFresh : ((issuedKeys session.log).map Prod.snd).Nodup) (hSpent : KeySpent session.log apiKey)
    (hCurrent : currentKey? session.log tenantId = some apiKey) :
    ¬session.shop.access.Active tenantId := by
  obtain ⟨owner, hIssued, hWhy⟩ := hSpent
  have hOwner : owner = tenantId := by
    have hSame := List.inj_on_of_nodup_map hFresh hIssued (mem_issuedKeys_of_currentKey? hCurrent) rfl
    exact congrArg Prod.fst hSame
  subst hOwner
  rintro hActive
  rcases hWhy with hReplaced | ⟨made, hMade, hRevokes⟩
  · exact hReplaced hCurrent
  · obtain ⟨row, hRow, hState⟩ := active_iff.mp hActive
    obtain ⟨revoked, hRevoked, hRevokedState⟩ := tracked.revoked made hMade owner hRevokes
    obtain rfl := Option.some.inj (hRow.symm.trans hRevoked)
    rw [hState] at hRevokedState
    cases hRevokedState

/-- Among inputs without collision, a delivery token's digest names the token. -/
theorem Tracked.token_of_digest (tracked : Tracked p keyring session) {made : Entry}
    (hFree : CollisionFree p keyring (session.log ++ [made])) {orderId token : String} {row : OrderBinding}
    (hRow : session.shop.access.orderBinding? orderId = some row)
    (hDigest : deliveryDigest p keyring token = row.tokenDigest) (hValid : validToken token = true)
    (hMac : deliveryDigestInput keyring token ∈ made.macs p keyring) :
    token = deliveryToken p keyring session.shop.commerce.environment row.tenantId orderId
      row.tokenVersion := by
  have bound := tracked.wellFormed.orders hRow
  obtain ⟨-, rfl⟩ := orderBinding?_eq_some.mp hRow
  have hStored : deliveryDigestInput keyring (deliveryToken p keyring
      session.shop.commerce.environment row.tenantId row.orderId row.tokenVersion) ∈
        macs p keyring (session.log ++ [made]) := by
    rw [macs_append]
    exact List.mem_append_left _ (tracked.tokens hRow (by simp [tokenMacs]))
  have hPresented : deliveryDigestInput keyring token ∈ macs p keyring (session.log ++ [made]) := by
    rw [macs_append]
    exact List.mem_append_right _ (by simpa [macs] using hMac)
  have hInput := hFree _ hPresented _ hStored (hDigest.trans bound.digest)
  have hToken : Pattern.deliveryToken token = true := by
    simp only [validToken, Bool.and_eq_true] at hValid
    exact hValid.2
  have hParts := (macInput_inj (by simp) (by simp) (by simpa using isPart_deliveryToken hToken)
    (by simpa using isPart_deliveryToken (deliveryToken_format p keyring _ _ _ _)) hInput).2.2
  exact List.singleton_inj.mp hParts

/-- A token authorizes exactly under the conditions on the order's row. -/
theorem Tracked.authorizes (tracked : Tracked p keyring session) {tenantId orderId token : String}
    {now : Option DateTime} {utcNow : Int} (hFree : CollisionFree p keyring
      (session.log ++ [session.entry p keyring (.authorizeOrder tenantId orderId token now utcNow)])) :
    (∃ authorization, session.shop.access.authorizeOrder p keyring tenantId orderId token now utcNow =
        .ok authorization) ↔
      ∃ row, Authorized p keyring session.shop tenantId orderId token (now.getD ⟨utcNow, true⟩) row := by
  constructor
  · rintro ⟨authorization, hRun⟩
    obtain ⟨hAware, hValid, row, ⟨hRow, rfl, hActive⟩, hState, hDigest, hExpiry, -⟩ :=
      authorizeOrder_eq_ok.mp hRun
    have hToken := tracked.token_of_digest hFree hRow hDigest hValid
      (by simp [Entry.macs, entry, presented, hValid])
    exact ⟨row, ⟨hRow, rfl⟩, hActive, hToken, hState, hAware, hExpiry⟩
  · rintro ⟨row, ⟨hRow, rfl⟩, hActive, rfl, hState, hAware, hExpiry⟩
    have bound := tracked.wellFormed.orders hRow
    obtain ⟨-, rfl⟩ := orderBinding?_eq_some.mp hRow
    exact ⟨_, authorizeOrder_eq_ok.mpr ⟨hAware, validToken_deliveryToken _ _ _ _, row,
      ⟨hRow, rfl, hActive⟩, hState, bound.digest.symm, hExpiry, rfl⟩⟩

/-- A succeeding call presents the token of an active row. -/
theorem Tracked.presented_token (tracked : Tracked p keyring session) {token : String}
    {result : Shop × Reply} (hEnabled : session.Enabled call) (hToken : call.token? = some token)
    (hServe : serve p keyring session.shop call = .ok result) :
    ∃ orderId row, session.shop.access.orderBinding? orderId = some row ∧ row.tokenState = .active ∧
      deliveryDigest p keyring token = row.tokenDigest ∧ validToken token = true ∧
      deliveryDigestInput keyring token ∈ (session.entry p keyring call).macs p keyring := by
  cases call with
  | authorizeChange revokes tenantId orderId token updatedAt utcNow =>
      obtain rfl := Option.some.inj hToken
      simp only [serve, Except.bind_eq_ok_iff, authorizeChange] at hServe
      obtain ⟨_, ⟨_, -, _, hAuthorized, -⟩, -⟩ := hServe
      obtain ⟨-, hValid, row, ⟨hRow, -⟩, hState, hDigest, -⟩ := authorizeOrder_eq_ok.mp hAuthorized
      exact ⟨orderId, row, hRow, hState, hDigest, hValid, by simp [Entry.macs, entry, presented, hValid]⟩
  | authorizeOrder tenantId orderId token now utcNow =>
      obtain rfl := Option.some.inj hToken
      simp only [serve, Except.bind_eq_ok_iff] at hServe
      obtain ⟨_, hAuthorized, -⟩ := hServe
      obtain ⟨-, hValid, row, ⟨hRow, -⟩, hState, hDigest, -⟩ := authorizeOrder_eq_ok.mp hAuthorized
      exact ⟨orderId, row, hRow, hState, hDigest, hValid, by simp [Entry.macs, entry, presented, hValid]⟩
  | commit change =>
      obtain rfl := Option.some.inj hToken
      simp only [serve, Except.bind_eq_ok_iff, Prod.exists] at hServe
      obtain ⟨after, event, hRun, -⟩ := hServe
      obtain ⟨row, _, hRow, -, hState, hDigest, -⟩ := Shop.perform_commit hRun
      exact ⟨change.ticket.orderId, row, hRow, hState, hDigest, tracked.pending change hEnabled,
        Shop.digestInput_commit p keyring session.shop change⟩
  | store call => cases hToken
  | authenticateApiKey apiKey => cases hToken

/-- Each spent token is of an earlier version, or its order's token is revoked. -/
def Retired (p : Platform) (keyring : Keyring) (session : Session) : Prop :=
  ∀ token, TokenSpent session.log token → ∃ orderId row version,
    session.shop.access.orderBinding? orderId = some row ∧
    token = deliveryToken p keyring session.shop.commerce.environment row.tenantId orderId version ∧
    deliveryTokenInput keyring row.tenantId orderId version ∈ macs p keyring session.log ∧
    (version < row.tokenVersion ∨ version = row.tokenVersion ∧ row.tokenState = .revoked)

/-- A call that presents a spent token fails. -/
theorem Tracked.tokenSpent (tracked : Tracked p keyring session) (retired : Retired p keyring session)
    {token : String} (hFree : CollisionFree p keyring (session.log ++ [session.entry p keyring call]))
    (hEnabled : session.Enabled call) (hSpent : TokenSpent session.log token)
    (hToken : call.token? = some token) (result : Shop × Reply) :
    serve p keyring session.shop call ≠ .ok result := by
  intro hServe
  obtain ⟨orderId, row, hRow, hState, hDigest, hValid, hMac⟩ :=
    tracked.presented_token hEnabled hToken hServe
  have hCurrent := tracked.token_of_digest hFree hRow hDigest hValid hMac
  obtain ⟨spentId, spentRow, version, hSpentRow, hSpentToken, hSpentMac, hOld⟩ := retired token hSpent
  have hInput : deliveryTokenInput keyring spentRow.tenantId spentId version =
      deliveryTokenInput keyring row.tenantId orderId row.tokenVersion := by
    apply hFree
    · rw [macs_append]
      exact List.mem_append_left _ hSpentMac
    · rw [macs_append]
      exact List.mem_append_left _ (tracked.tokens hRow (by simp [tokenMacs]))
    · exact deliveryToken_inj (hSpentToken.symm.trans hCurrent)
  have hPart : ∀ {orderId : String} {row : OrderBinding} (version : Nat),
      session.shop.access.orderBinding? orderId = some row →
        ∀ part ∈ [row.tenantId, orderId, toString version], isPart part = true := by
    intro orderId row version hRow part hPart
    have bound := tracked.wellFormed.orders hRow
    obtain ⟨-, rfl⟩ := orderBinding?_eq_some.mp hRow
    simp only [List.mem_cons, List.not_mem_nil, or_false] at hPart
    rcases hPart with rfl | rfl | rfl
    · exact isPart_tenantId bound.tenantPattern
    · exact isPart_orderId bound.orderPattern
    · exact isPart_toString version
  have hParts := (macInput_inj (by simp) (by simp) (hPart version hSpentRow)
    (hPart row.tokenVersion hRow) hInput).2.2
  simp only [List.cons.injEq, and_true] at hParts
  obtain ⟨-, rfl, hVersion⟩ := hParts
  obtain rfl := Option.some.inj (hRow.symm.trans hSpentRow)
  rcases hOld with hLess | ⟨-, hRevoked⟩
  · exact absurd (toString_inj hVersion) (Nat.ne_of_lt hLess)
  · rw [hState] at hRevoked
    cases hRevoked

/-- Spent tokens stay retired, and a succeeding change retires its own. -/
theorem step_retired (tracked : Tracked p keyring session) (retired : Retired p keyring session)
    (call : Call) (hFree : CollisionFree p keyring (session.step p keyring call).log) :
    Retired p keyring (session.step p keyring call) := by
  have hContinues := step_continues tracked call
  unfold step at hFree hContinues ⊢
  split at hFree
  · next hEnabled =>
      rw [if_pos hEnabled] at hContinues ⊢
      rintro token ⟨made, hMade, change, hChanges, hTicket⟩
      rcases List.mem_append.mp hMade with hOld | hNew
      · obtain ⟨orderId, row, version, hRow, hToken, hMac, hRetired⟩ :=
          retired token ⟨made, hOld, change, hChanges, hTicket⟩
        obtain ⟨later, hLater, keeps⟩ := hContinues.access.orderBindings hRow
        refine ⟨orderId, later, version, hLater, ?_, ?_, ?_⟩
        · rw [hContinues.commerce.environment, keeps.tenantId]
          exact hToken
        · rw [macs_append, keeps.tenantId]
          exact List.mem_append_left _ hMac
        · have hVersion := keeps.version
          rcases hRetired with hLess | ⟨rfl, hRevoked⟩
          · exact Or.inl (by omega)
          · rcases Nat.lt_or_ge row.tokenVersion later.tokenVersion with hMore | hSame
            · exact Or.inl hMore
            · exact Or.inr ⟨by omega, keeps.revoked hRevoked⟩
      · obtain rfl := List.mem_singleton.mp hNew
        obtain ⟨hCall, reply, hReturns⟩ := hChanges
        obtain rfl : call = .commit change := hCall
        subst hTicket
        have hServe : serve p keyring session.shop (.commit change) = _ := hReturns
        simp only [serve, Except.bind_eq_ok_iff, Except.pure_eq_ok_iff, Prod.mk.injEq,
          Prod.exists] at hServe
        obtain ⟨after, event, hRun, hAfter, -⟩ := hServe
        obtain ⟨row, next, hRow, -, -, hDigest, hNext, hTenant, hEffect⟩ := Shop.perform_commit hRun
        have hToken := tracked.token_of_digest hFree hRow hDigest (tracked.pending change hEnabled)
          (Shop.digestInput_commit p keyring session.shop change)
        refine ⟨change.ticket.orderId, next, row.tokenVersion, hAfter ▸ hNext, ?_, ?_, ?_⟩
        · rw [hContinues.commerce.environment, hTenant]
          exact hToken
        · rw [macs_append, hTenant]
          exact List.mem_append_left _ (tracked.tokens hRow (by simp [tokenMacs]))
        · cases hKind : change.revokes with
          | true =>
              rw [hKind, if_pos rfl] at hEffect
              exact Or.inr ⟨hEffect.1.symm, hEffect.2⟩
          | false =>
              rw [hKind, if_neg (by decide)] at hEffect
              exact Or.inl (by omega)
  · next hDisabled =>
      rw [if_neg hDisabled]
      exact retired

/-- What the log of a session shows of the credentials used in it. -/
structure Secure (p : Platform) (keyring : Keyring) (log : List Entry) : Prop where
  authenticates : ∀ {earlier later entry}, log = earlier ++ entry :: later → ∀ {apiKey},
    entry.call = .authenticateApiKey apiKey → ∀ tenantId,
      entry.Returns (.tenant tenantId) ↔
        currentKey? earlier tenantId = some apiKey ∧ entry.before.access.Active tenantId
  authorizes : ∀ {earlier later entry}, log = earlier ++ entry :: later →
    ∀ {tenantId orderId token now utcNow}, entry.call = .authorizeOrder tenantId orderId token now utcNow →
      (entry.Succeeds ↔ ∃ row, Authorized p keyring entry.before tenantId orderId token
        (now.getD ⟨utcNow, true⟩) row)
  keySpent : ∀ {earlier later entry}, log = earlier ++ entry :: later → ∀ {apiKey},
    KeySpent earlier apiKey → entry.call = .authenticateApiKey apiKey → ¬entry.Succeeds
  tokenSpent : ∀ {earlier later entry}, log = earlier ++ entry :: later → ∀ {token},
    TokenSpent earlier token → entry.call.token? = some token → ¬entry.Succeeds
  rotates : ∀ entry ∈ log, ∀ change, entry.Changes change → change.revokes = false → ∃ row next,
    entry.before.access.orderBinding? change.ticket.orderId = some row ∧
      entry.after.access.orderBinding? change.ticket.orderId = some next ∧
        next.tokenVersion = row.tokenVersion + 1
  once : ∀ {earlier middle later first second}, log = earlier ++ first :: middle ++ second :: later →
    ∀ {one other}, first.Changes one → second.Changes other → one.ticket.token ≠ other.ticket.token

theorem Entry.returns_iff {session : Session} {call : Call} {reply : Reply} :
    (session.entry p keyring call).Returns reply ↔
      ∃ after, serve p keyring session.shop call = .ok (after, reply) := by
  simp only [Entry.Returns, Entry.after, entry]
  cases serve p keyring session.shop call with
  | error raised => simp
  | ok result =>
      simp only [Except.ok.injEq]
      constructor
      · exact fun h => ⟨result.1, h⟩
      · rintro ⟨_, rfl⟩
        rfl

theorem CollisionFree.append_left {log more : List Entry} (hFree : CollisionFree p keyring (log ++ more)) :
    CollisionFree p keyring log := by
  unfold CollisionFree at hFree ⊢
  rw [macs_append] at hFree
  exact fun first hFirst second hSecond =>
    hFree first (List.mem_append_left _ hFirst) second (List.mem_append_left _ hSecond)

/-- A call is logged, or not enabled. -/
theorem step_log (p : Platform) (keyring : Keyring) (session : Session) (call : Call) :
    (session.step p keyring call).log = session.log ∨
      (session.step p keyring call).log = session.log ++ [session.entry p keyring call] := by
  unfold step
  split
  · exact Or.inr rfl
  · exact Or.inl rfl

theorem tracked_of_reaches {environment : Environment}
    (reaches : Runs.Reaches (step p keyring) (start environment) session) : Tracked p keyring session :=
  reaches.invariant (Tracked p keyring) (fun _ call h => step_tracked h call) (start_tracked environment)

theorem retired_of_reaches {environment : Environment}
    (reaches : Runs.Reaches (step p keyring) (start environment) session)
    (hFree : CollisionFree p keyring session.log) : Retired p keyring session := by
  have hBoth := reaches.invariant
    (fun session => Tracked p keyring session ∧
      (CollisionFree p keyring session.log → Retired p keyring session)) ?_ ?_
  · exact hBoth.2 hFree
  · rintro state call ⟨tracked, hRetired⟩
    refine ⟨step_tracked tracked call, fun hFree => step_retired tracked (hRetired ?_) call hFree⟩
    rcases step_log p keyring state call with hSame | hNew
    · exact hSame ▸ hFree
    · exact (hNew ▸ hFree).append_left
  · refine ⟨start_tracked environment, ?_⟩
    rintro - token ⟨made, hMade, -⟩
    cases hMade

/-- The state in which an entry was logged. -/
theorem logged {environment : Environment} {earlier later : List Entry} {made : Entry}
    (reaches : Runs.Reaches (step p keyring) (start environment) session)
    (hLog : session.log = earlier ++ made :: later) :
    ∃ state call, Runs.Reaches (step p keyring) (start environment) state ∧ state.log = earlier ∧
      made = state.entry p keyring call ∧ state.Enabled call := by
  obtain ⟨state, call, hReach, hEarlier, hMade, hAfter, -⟩ :=
    reaches.logged log (entry p keyring) (step_log p keyring) rfl hLog
  refine ⟨state, call, hReach, hEarlier, hMade, ?_⟩
  by_contra hDisabled
  unfold step at hAfter
  rw [if_neg hDisabled, hEarlier] at hAfter
  exact absurd hAfter.symm (by simp)

/-- The facts about the state in which an entry of a run was logged. -/
theorem logged_facts {environment : Environment} {earlier later : List Entry} {made : Entry}
    (reaches : Runs.Reaches (step p keyring) (start environment) session)
    (hFree : CollisionFree p keyring session.log) (hLog : session.log = earlier ++ made :: later) :
    ∃ state call, made = state.entry p keyring call ∧ state.log = earlier ∧ state.Enabled call ∧
      Tracked p keyring state ∧ Retired p keyring state ∧
      CollisionFree p keyring (state.log ++ [state.entry p keyring call]) := by
  obtain ⟨state, call, hReach, hEarlier, rfl, hEnabled⟩ := logged reaches hLog
  have hPrefix : CollisionFree p keyring (state.log ++ [state.entry p keyring call]) := by
    rw [hLog, List.append_cons] at hFree
    exact hEarlier ▸ hFree.append_left
  exact ⟨state, call, rfl, hEarlier, hEnabled, tracked_of_reaches hReach,
    retired_of_reaches hReach hPrefix.append_left, hPrefix⟩

/-- A call that presents a spent token has failed. -/
theorem spent_fails {environment : Environment} {earlier later : List Entry} {made : Entry}
    (reaches : Runs.Reaches (step p keyring) (start environment) session)
    (hFree : CollisionFree p keyring session.log) (hLog : session.log = earlier ++ made :: later)
    {token : String} (hSpent : TokenSpent earlier token) (hToken : made.call.token? = some token) :
    ¬made.Succeeds := by
  obtain ⟨state, call, rfl, rfl, hEnabled, tracked, retired, hPrefix⟩ := logged_facts reaches hFree hLog
  rintro ⟨reply, hReturns⟩
  obtain ⟨after, hServe⟩ := Entry.returns_iff.mp hReturns
  exact tracked.tokenSpent retired hPrefix hEnabled hSpent hToken (after, reply) hServe

/-- In every interleaving, credentials work exactly while they are current:
nothing revives a key or a token that was replaced or revoked. -/
theorem revocation_permanent (p : Platform) (keyring : Keyring) (environment : Environment)
    (calls : List Call)
    (hFree : CollisionFree p keyring (Runs.run (step p keyring) (start environment) calls).log)
    (hFresh : ((issuedKeys (Runs.run (step p keyring) (start environment) calls).log).map
      Prod.snd).Nodup) :
    Secure p keyring (Runs.run (step p keyring) (start environment) calls).log := by
  have reaches : Runs.Reaches (step p keyring) (start environment)
    (Runs.run (step p keyring) (start environment) calls) := ⟨calls, rfl⟩
  have hAuthenticates : ∀ {earlier later entry},
      (Runs.run (step p keyring) (start environment) calls).log = earlier ++ entry :: later →
        ∀ {apiKey}, entry.call = .authenticateApiKey apiKey → ∀ tenantId,
          entry.Returns (.tenant tenantId) ↔
            currentKey? earlier tenantId = some apiKey ∧ entry.before.access.Active tenantId := by
    intro earlier later made hLog apiKey hCall tenantId
    obtain ⟨state, call, rfl, rfl, -, tracked, -, hPrefix⟩ := logged_facts reaches hFree hLog
    obtain rfl : call = .authenticateApiKey apiKey := hCall
    refine Entry.returns_iff.trans (Iff.trans ?_ (tracked.authenticates hPrefix))
    simp [serve]
  refine ⟨hAuthenticates, ?_, ?_, spent_fails reaches hFree, ?_, ?_⟩
  · intro earlier later made hLog tenantId orderId token now utcNow hCall
    obtain ⟨state, call, rfl, rfl, -, tracked, -, hPrefix⟩ := logged_facts reaches hFree hLog
    obtain rfl : call = .authorizeOrder tenantId orderId token now utcNow := hCall
    refine Iff.trans ?_ (tracked.authorizes hPrefix)
    simp [Entry.Succeeds, Entry.returns_iff, serve]
  · rintro earlier later made hLog apiKey hSpent hCall ⟨reply, hReturns⟩
    obtain ⟨tenantId, rfl⟩ : ∃ tenantId, reply = .tenant tenantId := by
      obtain ⟨state, call, rfl, -⟩ := logged_facts reaches hFree hLog
      obtain rfl : call = .authenticateApiKey apiKey := hCall
      obtain ⟨after, hServe⟩ := Entry.returns_iff.mp hReturns
      simp only [serve, Except.bind_eq_ok_iff, Except.pure_eq_ok_iff, Prod.mk.injEq] at hServe
      obtain ⟨tenantId, -, -, rfl⟩ := hServe
      exact ⟨tenantId, rfl⟩
    obtain ⟨hCurrent, hActive⟩ := (hAuthenticates hLog hCall tenantId).mp hReturns
    obtain ⟨state, call, rfl, rfl, -, tracked, -, -⟩ := logged_facts reaches hFree hLog
    refine tracked.keySpent ?_ hSpent hCurrent hActive
    rw [hLog, issuedKeys, List.filterMap_append, List.map_append] at hFresh
    exact hFresh.of_append_left
  · intro made hMade change hChanges hRotates
    obtain ⟨earlier, later, hLog⟩ := List.append_of_mem hMade
    obtain ⟨state, call, rfl, -⟩ := logged_facts reaches hFree hLog
    obtain ⟨hCall, reply, hReturns⟩ := hChanges
    obtain rfl : call = .commit change := hCall
    have hServe : serve p keyring state.shop (.commit change) = _ := hReturns
    simp only [serve, Except.bind_eq_ok_iff, Except.pure_eq_ok_iff, Prod.mk.injEq, Prod.exists] at hServe
    obtain ⟨after, event, hRun, hAfter, -⟩ := hServe
    obtain ⟨row, next, hRow, -, -, -, hNext, -, hEffect⟩ := Shop.perform_commit hRun
    rw [hRotates, if_neg (by decide)] at hEffect
    exact ⟨row, next, hRow, hAfter ▸ hNext, hEffect⟩
  · intro earlier middle later first second hLog one other hFirst hSecond hSame
    refine spent_fails reaches hFree hLog ⟨first, ?_, one, hFirst, rfl⟩ ?_ hSecond.2
    · simp
    · rw [hSecond.1, hSame]
      rfl

theorem collisionFree_of_nodup {log : List Entry}
    (hDistinct : ((macs p keyring log).dedup.map (mac p)).Nodup) : CollisionFree p keyring log :=
  fun _ hFirst _ hSecond hSame =>
    List.inj_on_of_nodup_map hDistinct (List.mem_dedup.mpr hFirst) (List.mem_dedup.mpr hSecond) hSame

end Session

namespace Sample

def keyring : Keyring where
  authPepper := List.replicate 32 1
  deliverySecret := List.replicate 32 2
  length_authPepper := by decide
  length_deliverySecret := by decide
  distinct := by decide

def drawn (byte : UInt8) : Digest := ⟨List.replicate 32 byte, List.length_replicate⟩

def tenantId : String := "ten_000000000000000000000001"

/-- The two calls change the first delivery token of the sample order. -/
def change (revokes : Bool) : Shop.Change where
  revokes := revokes
  ticket := ⟨tenantId, orderId, deliveryToken .standard keyring .sandbox tenantId orderId 1,
    "2026-01-01T00:00:00Z", newYear⟩

def authorizeChange (revokes : Bool) : Session.Call :=
  .authorizeChange revokes tenantId orderId (change revokes).ticket.token none newYear

/-- A tenant whose key is replaced buys, then replaces and revokes the token at once. -/
def sessionCalls : List Session.Call :=
  [.store (.provisionTenant (some tenantId) "" (drawn 1) none newYear),
    .authenticateApiKey (apiKeyOf .sandbox (drawn 1)),
    .store (.rotateApiKey tenantId (drawn 2) none newYear),
    .authenticateApiKey (apiKeyOf .sandbox (drawn 1))] ++
  (opening "fake").map (fun call => .store (.commerce call)) ++
  [.store (.bindQuote tenantId quoteId "order-key-0001" none newYear),
    .store (.bindOrder tenantId orderId quoteId none newYear),
    authorizeChange false, authorizeChange true, .commit (change false), .commit (change true)]

end Sample

theorem Session.revocation_permanent_sample :
    Secure .standard Sample.keyring
      (Runs.run (step .standard Sample.keyring) (start .sandbox) Sample.sessionCalls).log := by
  have hDistinct :
      ((macs .standard Sample.keyring (Runs.run (step .standard Sample.keyring) (start .sandbox)
        Sample.sessionCalls).log).dedup.map (mac .standard)).Nodup ∧
      ((issuedKeys (Runs.run (step .standard Sample.keyring) (start .sandbox)
        Sample.sessionCalls).log).map Prod.snd).Nodup := by decide +kernel
  exact revocation_permanent .standard Sample.keyring .sandbox Sample.sessionCalls
    (collisionFree_of_nodup hDistinct.1) hDistinct.2

end VouchSpec
