import VouchSpec.Api.Routes
import VouchSpec.Access.Revocation
import VouchSpec.Commerce.Replay

/-! A repeated `POST /v1/commerce/quotes`. The store compares the stored quote
with one that is built anew, whose times are those of the repetition. -/

namespace VouchSpec

open Access

/-- Two instants of one second. -/
def SameSecond (first second : DateTime) : Prop := first.instant / 1000000 = second.instant / 1000000

instance (first second : DateTime) : Decidable (SameSecond first second) :=
  inferInstanceAs (Decidable (_ = _))

theorem Platform.timestamp_shifted (p : Platform) {first second : DateTime}
    (hSame : SameSecond first second) (count : Int) :
    p.timestamp (first.instant + minutes count) = p.timestamp (second.instant + minutes count) := by
  apply p.timestamp_inj.mpr
  unfold SameSecond at hSame
  unfold minutes
  omega

/-- What an offer keeps of its preview. -/
theorem Quote.offered_fields (p : Platform) (preview : Quote) (provider : Provider)
    (environment : Environment) (generatedAt : DateTime) :
    (preview.offered p provider environment generatedAt).generatedAt = preview.generatedAt ∧
      (preview.offered p provider environment generatedAt).orderable = true := ⟨rfl, rfl⟩

theorem Quote.offered_sameSecond (p : Platform) (preview : Quote) (provider : Provider)
    (environment : Environment) {first second : DateTime} (hSame : SameSecond first second) :
    preview.offered p provider environment first = preview.offered p provider environment second := by
  unfold Quote.offered
  rw [p.timestamp_shifted hSame]

/-- A preview that is built at one time is built at any other, with that time. -/
theorem buildFreshValidationQuote_at {p : Platform} {value : Json} {quoteId drawn : String}
    {first second : DateTime} {preview : Quote}
    (hBuilt : buildFreshValidationQuote p value first quoteId drawn true = .ok preview)
    (hAware : second.aware = true) :
    ∃ other, buildFreshValidationQuote p value second quoteId drawn true = .ok other ∧
      other.quoteStatus = preview.quoteStatus ∧ other.generatedAt = p.timestamp second.instant ∧
      preview.generatedAt = p.timestamp first.instant ∧ preview.orderable = false ∧
      (SameSecond first second → other = preview) := by
  unfold buildFreshValidationQuote at hBuilt ⊢
  simp only [Except.bind_eq_ok_iff, require_eq_ok, Except.pure_eq_ok_iff] at hBuilt ⊢
  obtain ⟨request, hRequest, _, hPattern, _, -, rfl⟩ := hBuilt
  refine ⟨_, ⟨request, hRequest, (), hPattern, (), hAware, rfl⟩, rfl, rfl, rfl, rfl, ?_⟩
  intro hSame
  have hNow : p.timestamp first.instant = p.timestamp second.instant := p.timestamp_inj.mpr hSame
  simp only [p.timestamp_shifted hSame, hNow]

namespace Commerce

variable {p : Platform} {db after : Commerce}

/-- The ways in which a quote is created. -/
theorem createQuote_eq_ok {value : Json} {quoteId paymentProvider drawn : String} {now : DateTime}
    {live : Bool} {quote : Quote} :
    db.createQuote p value quoteId now paymentProvider live drawn = .ok (after, quote) ↔
      ∃ provider request preview, Provider.ofName paymentProvider = some provider ∧
        ¬(provider = .fake ∧ db.environment ≠ .sandbox) ∧
        ¬(db.environment = .live ∧ ¬(provider = .stripe ∧ live = true)) ∧
        parseFreshValidationRequest value = .ok request ∧
        buildFreshValidationQuote p request.toJson now quoteId drawn true = .ok preview ∧
        ((preview.quoteStatus = "declined_max_price" ∧ after = db ∧ quote = preview) ∨
          (preview.quoteStatus ≠ "declined_max_price" ∧
            quote = preview.offered p provider db.environment now ∧
            ((∃ existing, db.quote? quoteId = some existing ∧ existing.request = request ∧
                existing.quote = quote ∧ after = db) ∨
              (db.quote? quoteId = none ∧ ∃ quotes, db.quotes.insert?
                { quoteId, environment := db.environment, requestDigest := quote.requestDigest, request,
                  quote, amountMinor := quote.amountMinor, currency := freshValidationCurrency,
                  generatedAt := quote.generatedAt, expiresAt := quote.expiresAt, orderable := true,
                  countsForGoal := false } = some quotes ∧ after = { db with quotes })))) := by
  unfold createQuote
  simp only [Except.bind_eq_ok_iff, Except.ofOption_eq_ok_iff, require_eq_ok]
  constructor
  · rintro ⟨provider, hProvider, _, hFake, _, hLive, request, hRequest, preview, hPreview, hRest⟩
    refine ⟨provider, request, preview, hProvider, hFake, hLive, hRequest, hPreview, ?_⟩
    split at hRest
    · next hDeclined =>
        cases hRest
        exact Or.inl ⟨hDeclined, rfl, rfl⟩
    · next hOffered =>
        refine Or.inr ⟨hOffered, ?_⟩
        split at hRest
        · next existing hExisting =>
            simp only [Except.bind_eq_ok_iff, require_eq_ok, Except.pure_eq_ok_iff,
              Prod.mk.injEq] at hRest
            obtain ⟨_, ⟨hSame, hQuote⟩, rfl, rfl⟩ := hRest
            exact ⟨hQuote, Or.inl ⟨existing, hExisting, hSame, rfl, rfl⟩⟩
        · next hNone =>
            simp only [Except.bind_eq_ok_iff, Except.ofOption_eq_ok_iff, Except.pure_eq_ok_iff,
              Prod.mk.injEq] at hRest
            obtain ⟨quotes, hInsert, rfl, rfl⟩ := hRest
            exact ⟨rfl, Or.inr ⟨hNone, quotes, hInsert, rfl⟩⟩
  · rintro ⟨provider, request, preview, hProvider, hFake, hLive, hRequest, hPreview, hRest⟩
    refine ⟨provider, hProvider, (), hFake, (), hLive, request, hRequest, preview, hPreview, ?_⟩
    rcases hRest with ⟨hDeclined, rfl, rfl⟩ | ⟨hOffered, rfl, hRest⟩
    · rw [if_pos hDeclined]
      rfl
    · rw [if_neg hOffered]
      rcases hRest with ⟨existing, hExisting, hSame, hQuote, rfl⟩ | ⟨hNone, quotes, hInsert, rfl⟩
      · simp only [hExisting, Except.bind_eq_ok_iff, require_eq_ok, Except.pure_eq_ok_iff, Prod.mk.injEq]
        exact ⟨(), ⟨hSame, hQuote⟩, trivial, hQuote⟩
      · simp only [hNone, Except.bind_eq_ok_iff, Except.ofOption_eq_ok_iff, Except.pure_eq_ok_iff,
          Prod.mk.injEq]
        exact ⟨quotes, hInsert, rfl, trivial⟩

end Commerce

namespace Api

variable {p : Platform} {keyring : Keyring} {settings : Settings} {shop after : Shop}

/-- The ways in which a quote is posted. -/
theorem returns_postQuote {tenantId : String} {now : DateTime} {body : Except Raised Json}
    {key : Except Raised String} {quote : Quote} :
    (postQuote p keyring settings tenantId now body key).run.Returns shop quote after ↔
      ∃ request idempotencyKey quoteId, now.aware = true ∧ body = .ok request ∧ key = .ok idempotencyKey ∧
        deriveQuoteId p keyring tenantId idempotencyKey = .ok quoteId ∧
        (shop.access.quoteOwned tenantId quoteId = true ∨
          ∃ counts, shop.access.tenantResourceCounts tenantId = .ok counts ∧
            counts.quotes < settings.maxQuotesPerTenant) ∧
        ∃ commerce, shop.commerce.createQuote p request quoteId now settings.paymentProvider
            settings.liveCheckoutEnabled "" = .ok (commerce, quote) ∧
          ((quote.orderable = true ∧ ∃ access, shop.access.bindQuote p keyring commerce tenantId quoteId
              idempotencyKey (some (p.timestamp now.instant)) now.instant = .ok (access, ()) ∧
              after = ⟨commerce, access⟩) ∨
            (quote.orderable = false ∧ after = { shop with commerce })) := by
  simp only [postQuote, Program.run_bind, Program.run_check, Program.run_pure, Routine.returns_bind,
    Routine.returns_reading, Routine.returns_pure, returns_onCommerce, returns_checkQuoteLimit,
    timestampOf, Except.bind_eq_ok_iff, require_eq_ok, Except.pure_eq_ok_iff]
  constructor
  · rintro ⟨_, _, ⟨⟨_, hAware, rfl⟩, rfl⟩, request, _, ⟨hBody, rfl⟩, idempotencyKey, _, ⟨hKey, rfl⟩,
      quoteId, _, ⟨hQuoteId, rfl⟩, _, _, ⟨rfl, hLimit⟩, _, _, ⟨commerce, hCreate, rfl⟩, _, _, hBind, rfl,
      rfl⟩
    refine ⟨request, idempotencyKey, quoteId, hAware, hBody, hKey, hQuoteId, hLimit, commerce, hCreate, ?_⟩
    unfold bindOrderable at hBind
    split at hBind
    · next hOrderable =>
        obtain ⟨access, hAccess, rfl⟩ := returns_onAccess.mp hBind
        exact Or.inl ⟨hOrderable, access, hAccess, rfl⟩
    · next hPreview =>
        exact Or.inr ⟨Bool.eq_false_iff.mpr hPreview, (Routine.returns_pure.mp hBind).2.symm⟩
  · rintro ⟨request, idempotencyKey, quoteId, hAware, hBody, hKey, hQuoteId, hLimit, commerce, hCreate,
      hBind⟩
    refine ⟨_, shop, ⟨⟨(), hAware, rfl⟩, rfl⟩, request, shop, ⟨hBody, rfl⟩, idempotencyKey, shop,
      ⟨hKey, rfl⟩, quoteId, shop, ⟨hQuoteId, rfl⟩, (), shop, ⟨rfl, hLimit⟩, quote, _,
      ⟨commerce, hCreate, rfl⟩, (), after, ?_, rfl, rfl⟩
    unfold bindOrderable
    rcases hBind with ⟨hOrderable, access, hAccess, rfl⟩ | ⟨hPreview, rfl⟩
    · rw [if_pos hOrderable]
      exact returns_onAccess.mpr ⟨access, hAccess, rfl⟩
    · rw [if_neg (by simp [hPreview])]
      exact Routine.returns_pure.mpr ⟨rfl, rfl⟩

/-- The stored rows that a posted orderable quote leaves behind. -/
theorem postQuote_stores {tenantId : String} {now : DateTime} {body : Except Raised Json}
    {key : Except Raised String} {quote : Quote} (hOrderable : quote.orderable = true)
    (hReturns : (postQuote p keyring settings tenantId now body key).run.Returns shop quote after) :
    ∃ request idempotencyKey quoteId parsed provider preview row binding,
      body = .ok request ∧ key = .ok idempotencyKey ∧
      deriveQuoteId p keyring tenantId idempotencyKey = .ok quoteId ∧
      Provider.ofName settings.paymentProvider = some provider ∧
      ¬(provider = .fake ∧ after.commerce.environment ≠ .sandbox) ∧
      ¬(after.commerce.environment = .live ∧ ¬(provider = .stripe ∧ settings.liveCheckoutEnabled = true)) ∧
      parseFreshValidationRequest request = .ok parsed ∧
      buildFreshValidationQuote p parsed.toJson now quoteId "" true = .ok preview ∧
      preview.quoteStatus ≠ "declined_max_price" ∧
      quote = preview.offered p provider after.commerce.environment now ∧
      after.commerce.quote? quoteId = some row ∧ row.request = parsed ∧ row.quote = quote ∧
      after.access.quoteBinding? quoteId = some binding ∧ binding.tenantId = tenantId ∧
      binding.idempotencyDigest = mac p (idempotencyInput keyring tenantId idempotencyKey) ∧
      VouchSpec.Pattern.quoteId quoteId = true ∧ Pattern.idempotency idempotencyKey = true ∧
      [tenantId, idempotencyKey].all Bytes.isAscii = true := by
  obtain ⟨request, idempotencyKey, quoteId, hAware, hBody, hKey, hQuoteId, -, commerce, hCreate, hBind⟩ :=
    returns_postQuote.mp hReturns
  obtain ⟨-, access, hBound, rfl⟩ | ⟨hPreview, -⟩ := hBind
  swap
  · rw [hOrderable] at hPreview
    cases hPreview
  obtain ⟨provider, parsed, preview, hProvider, hFake, hLive, hParsed, hPreview, hRest⟩ :=
    Commerce.createQuote_eq_ok.mp hCreate
  obtain ⟨-, -, -, -, hUnorderable, -⟩ := buildFreshValidationQuote_at hPreview hAware
  obtain ⟨-, -, rfl⟩ | ⟨hOffered, hQuote, hStored⟩ := hRest
  · obtain ⟨-, -, -, -, -, hFalse, -⟩ := buildFreshValidationQuote_at hPreview hAware
    rw [hOrderable] at hFalse
    cases hFalse
  have hEnvironment : commerce.environment = shop.commerce.environment := by
    rcases hStored with ⟨_, -, -, -, rfl⟩ | ⟨-, _, -, rfl⟩ <;> rfl
  obtain ⟨row, hRow, hSame, hRowQuote⟩ : ∃ row, commerce.quote? quoteId = some row ∧
      row.request = parsed ∧ row.quote = quote := by
    rcases hStored with ⟨existing, hExisting, hSame, hExistingQuote, rfl⟩ | ⟨hNone, quotes, hInsert, rfl⟩
    · exact ⟨existing, hExisting, hSame, hExistingQuote⟩
    · exact ⟨_, Commerce.quote?_eq_some.mpr ⟨Table.mem_of_insert? hInsert, rfl⟩, rfl, rfl⟩
  obtain ⟨⟨hPattern, hIdempotency⟩, hAscii, -, -, -, hBinding⟩ := bindQuote_eq_ok.mp hBound
  obtain ⟨binding, hFound, hTenant, hDigest⟩ : ∃ binding, access.quoteBinding? quoteId = some binding ∧
      binding.tenantId = tenantId ∧
      binding.idempotencyDigest = mac p (idempotencyInput keyring tenantId idempotencyKey) := by
    rcases hBinding with ⟨existing, hExisting, hTenant, hDigest, rfl⟩ | ⟨hNone, bindings, hInsert, rfl⟩
    · exact ⟨existing, hExisting, hTenant, hDigest⟩
    · exact ⟨_, quoteBinding?_eq_some.mpr ⟨Table.mem_of_insert? hInsert, rfl⟩, rfl, rfl⟩
  refine ⟨request, idempotencyKey, quoteId, parsed, provider, preview, row, binding, hBody, hKey, hQuoteId,
    hProvider, ?_, ?_, hParsed, hPreview, hOffered, ?_, hRow, hSame, hRowQuote, hFound, hTenant, hDigest,
    hPattern, hIdempotency, hAscii⟩
  · exact hEnvironment ▸ hFake
  · exact hEnvironment ▸ hLive
  · exact hEnvironment ▸ hQuote

theorem returns_quoteReply {tenantId : String} {now : DateTime} {body : Except Raised Json}
    {key : Except Raised String} {quote : Quote} :
    (serve p keyring settings tenantId now (.postQuote body key)).run.Returns shop (.quote quote) after ↔
      (postQuote p keyring settings tenantId now body key).run.Returns shop quote after := by
  change ((postQuote p keyring settings tenantId now body key >>=
    fun quote => pure (Reply.quote quote)).run).Returns _ _ _ ↔ _
  simp only [Program.run_bind, Program.run_pure, Routine.returns_bind, Routine.returns_pure,
    Reply.quote.injEq]
  constructor
  · rintro ⟨_, _, hRun, rfl, rfl⟩
    exact hRun
  · intro hRun
    exact ⟨quote, after, hRun, rfl, rfl⟩

/-- A post leads to a state that calls of the stores lead to. -/
theorem postQuote_reaches {tenantId : String} {now : DateTime} {body : Except Raised Json}
    {key : Except Raised String} {quote : Quote}
    (hReturns : (postQuote p keyring settings tenantId now body key).run.Returns shop quote after) :
    Runs.Reaches (Shop.step p keyring) shop after := by
  have hRun := (follows_postQuote p keyring settings tenantId now body key).run Runs.Reaches.refl
    (fun _ _ _ left right => left.trans right) shop
  unfold Routine.Returns at hReturns
  rwa [hReturns] at hRun

/-- In any later state, the repetition of a post finds its quote exactly when
it is made in the second of the first post. -/
theorem postQuote_again (wellFormed : shop.WellFormed p keyring) {later : Shop} {tenantId : String}
    {first second : DateTime} {body : Except Raised Json} {key : Except Raised String} {quote : Quote}
    (hOrderable : quote.orderable = true)
    (hFirst : (postQuote p keyring settings tenantId first body key).run.Returns shop quote after)
    (reaches : Runs.Reaches (Shop.step p keyring) after later) (hActive : later.access.Active tenantId)
    (hAware : second.aware = true) :
    (postQuote p keyring settings tenantId second body key).run.Returns later quote later ↔
      SameSecond first second := by
  have hAfter := Shop.wellFormed_of_reaches wellFormed (postQuote_reaches hFirst)
  have continues := Shop.continues_of_reaches hAfter reaches
  obtain ⟨request, idempotencyKey, quoteId, parsed, provider, preview, row, binding, hBody, hKey, hQuoteId,
    hProvider, hFake, hLive, hParsed, hPreview, hOffered, hQuote, hRow, hSame, hRowQuote, hBinding,
    hTenant, hDigest, hPattern, hIdempotency, hAscii⟩ := postQuote_stores hOrderable hFirst
  have hLaterRow := continues.commerce.quotes hRow
  have hLaterBinding := continues.access.quoteBindings hBinding
  have hEnvironment := continues.commerce.environment
  obtain ⟨other, hOther, hStatus, hOtherTime, hTime, -, hEqual⟩ :=
    buildFreshValidationQuote_at hPreview hAware
  constructor
  · intro hSecond
    obtain ⟨request', idempotencyKey', quoteId', -, hBody', hKey', hQuoteId', -, commerce, hCreate, -⟩ :=
      returns_postQuote.mp hSecond
    obtain rfl := Except.ok.inj (hBody.symm.trans hBody')
    obtain rfl := Except.ok.inj (hKey.symm.trans hKey')
    obtain rfl := Except.ok.inj (hQuoteId.symm.trans hQuoteId')
    obtain ⟨provider', parsed', preview', -, -, -, hParsed', hPreview', hRest⟩ :=
      Commerce.createQuote_eq_ok.mp hCreate
    obtain rfl := Except.ok.inj (hParsed.symm.trans hParsed')
    obtain rfl := Except.ok.inj (hOther.symm.trans hPreview')
    have hGenerated : quote.generatedAt = other.generatedAt := by
      rcases hRest with ⟨-, -, rfl⟩ | ⟨-, rfl, -⟩
      · rfl
      · rfl
    have hFirstTime : quote.generatedAt = preview.generatedAt := by rw [hQuote]; rfl
    rw [hFirstTime, hTime, hOtherTime] at hGenerated
    exact p.timestamp_inj.mp hGenerated
  · intro hSecond
    obtain rfl := hEqual hSecond
    apply returns_postQuote.mpr
    refine ⟨request, idempotencyKey, quoteId, hAware, hBody, hKey, hQuoteId, Or.inl ?_, later.commerce, ?_,
      Or.inl ⟨hOrderable, later.access, ?_, rfl⟩⟩
    · exact decide_eq_true ⟨⟨binding, hLaterBinding, hTenant⟩, hActive⟩
    · refine Commerce.createQuote_eq_ok.mpr ⟨provider, parsed, other, hProvider, ?_, ?_, hParsed, hOther,
        Or.inr ⟨hOffered, ?_, Or.inl ⟨row, hLaterRow, hSame, hRowQuote, rfl⟩⟩⟩
      · exact hEnvironment ▸ hFake
      · exact hEnvironment ▸ hLive
      · rw [hEnvironment, hQuote]
        exact Quote.offered_sameSecond p other provider _ hSecond
    · refine bindQuote_eq_ok.mpr ⟨⟨hPattern, hIdempotency⟩, hAscii, ?_, ⟨?_, hActive⟩, ?_,
        Or.inl ⟨binding, hLaterBinding, hTenant, hDigest, rfl⟩⟩
      · rw [Commerce.orElseNow_timestamp]
        exact ⟨_, p.parseTimestampAs_timestamp _ _ _⟩
      · exact (deriveQuoteId_eq_ok p keyring).mp hQuoteId |>.1.1
      · rw [hLaterRow]
        rfl

/-- The same request of the same tenant, made again in any later state, finds
the quote and changes nothing exactly when it comes within the same second. -/
theorem quote_retry (p : Platform) (keyring : Keyring) (settings : Settings) {middle later : Shop}
    (reachable : shop.Reachable p keyring) {tenantId apiKey current : String} {first second : DateTime}
    {body : Except Raised Json} {key : Except Raised String} {quote : Quote}
    (hOrderable : quote.orderable = true)
    (hAuthentic : shop.access.authenticateApiKey p keyring shop.commerce apiKey = .ok tenantId)
    (hFirst : (handle p keyring settings ⟨.ok apiKey, first, .postQuote body key⟩).run.Returns shop
      (.quote quote) middle)
    (reaches : Runs.Reaches (Shop.step p keyring) middle later)
    (hAgain : later.access.authenticateApiKey p keyring later.commerce current = .ok tenantId)
    (hAware : second.aware = true) :
    (handle p keyring settings ⟨.ok current, second, .postQuote body key⟩).run.Returns later
        (.quote quote) later ↔ SameSecond first second := by
  obtain ⟨_, _, hCredential, hTenant, hServe⟩ := returns_handle.mp hFirst
  obtain rfl := Except.ok.inj hCredential
  obtain rfl := Except.ok.inj (hAuthentic.symm.trans hTenant)
  obtain ⟨-, row, hRow, -, hState⟩ := authenticateApiKey_eq_ok.mp hAgain
  have hRoute := postQuote_again reachable.wellFormed hOrderable (returns_quoteReply.mp hServe) reaches
    (active_iff.mpr ⟨row, hRow, hState⟩) hAware
  refine Iff.trans ?_ hRoute
  constructor
  · intro hSecond
    obtain ⟨_, _, hCredential, hTenant, hServe⟩ := returns_handle.mp hSecond
    obtain rfl := Except.ok.inj hCredential
    obtain rfl := Except.ok.inj (hAgain.symm.trans hTenant)
    exact returns_quoteReply.mp hServe
  · intro hSecond
    exact returns_handle.mpr ⟨current, tenantId, rfl, hAgain, returns_quoteReply.mpr hSecond⟩

end Api

namespace Sample

/-- A file with one tenant. -/
def staffed : Shop :=
  Shop.step .standard keyring (Shop.empty .sandbox)
    (.provisionTenant (some tenantId) "" (drawn 1) none newYear)

theorem staffed_reachable : Shop.Reachable .standard keyring staffed := ⟨.sandbox, .single _ _⟩

/-- The sample request for a quote, some microseconds after new year. -/
def quoteRequest (delay : Int) : Api.Request where
  credential := .ok (apiKeyOf .sandbox (drawn 1))
  now := ⟨newYear + delay, true⟩
  action := .postQuote (.ok request) (.ok "quote-key-0001")

/-- The tenant's key is current before and after the first post, and what the
second finds. -/
def firstPost (accepts : Quote → Shop → Bool) : Bool :=
  decide (staffed.access.authenticateApiKey .standard keyring staffed.commerce
      (apiKeyOf .sandbox (drawn 1)) = .ok tenantId) &&
    match (Api.handle .standard keyring {} (quoteRequest 0)).run staffed with
    | (.ok (.quote quote), after) => quote.orderable && decide (after.access.authenticateApiKey .standard
        keyring after.commerce (apiKeyOf .sandbox (drawn 1)) = .ok tenantId) && accepts quote after
    | _ => false

theorem firstPost_returns {accepts : Quote → Shop → Bool} (h : firstPost accepts = true) :
    staffed.access.authenticateApiKey .standard keyring staffed.commerce
        (apiKeyOf .sandbox (drawn 1)) = .ok tenantId ∧
      ∃ quote after, (Api.handle .standard keyring {} (quoteRequest 0)).run.Returns staffed
          (.quote quote) after ∧ quote.orderable = true ∧
        after.access.authenticateApiKey .standard keyring after.commerce
          (apiKeyOf .sandbox (drawn 1)) = .ok tenantId ∧ accepts quote after = true := by
  simp only [firstPost, Bool.and_eq_true, decide_eq_true_eq] at h
  refine ⟨h.1, ?_⟩
  have hPost := h.2
  split at hPost
  · next quote after hRun =>
      simp only [Bool.and_eq_true, decide_eq_true_eq] at hPost
      exact ⟨quote, after, hRun, hPost.1.1, hPost.1.2, hPost.2⟩
  · cases hPost

end Sample

/-- The repetition of an answered post, one second later, is a conflict. -/
theorem Api.quote_retry_conflicts : ∃ shop quote after, Shop.Reachable .standard Sample.keyring shop ∧
    (handle .standard Sample.keyring {} (Sample.quoteRequest 0)).run.Returns shop (.quote quote) after ∧
      quote.orderable = true ∧
      Access.parseTimestamp .standard quote.expiresAt = .ok (Sample.newYear + minutes 15) ∧
      ((handle .standard Sample.keyring {} (Sample.quoteRequest 1000000)).run after).1 =
        .error (rejected "quote identifier was reused with different content" "idempotency_conflict") := by
  have hPost : Sample.firstPost (fun quote after =>
      decide (Access.parseTimestamp .standard quote.expiresAt = .ok (Sample.newYear + minutes 15)) &&
        decide (((handle .standard Sample.keyring {} (Sample.quoteRequest 1000000)).run after).1 =
          .error (rejected "quote identifier was reused with different content"
            "idempotency_conflict"))) = true := by decide +kernel
  obtain ⟨-, quote, after, hRun, hOrderable, -, hFound⟩ := Sample.firstPost_returns hPost
  simp only [Bool.and_eq_true, decide_eq_true_eq] at hFound
  exact ⟨Sample.staffed, quote, after, Sample.staffed_reachable, hRun, hOrderable, hFound.1, hFound.2⟩

/-- Within the second it finds the quote. -/
theorem Api.quote_retry_within : ∃ quote after,
    (handle .standard Sample.keyring {} (Sample.quoteRequest 0)).run.Returns Sample.staffed
      (.quote quote) after ∧
    (handle .standard Sample.keyring {} (Sample.quoteRequest 999999)).run.Returns after
      (.quote quote) after := by
  have hPost : Sample.firstPost (fun _ _ => true) = true := by decide +kernel
  obtain ⟨hAuthentic, quote, after, hRun, hOrderable, hAgain, -⟩ := Sample.firstPost_returns hPost
  exact ⟨quote, after, hRun, (quote_retry .standard Sample.keyring {} Sample.staffed_reachable
    hOrderable hAuthentic hRun (.refl after) hAgain rfl).mpr (by decide)⟩

end VouchSpec
