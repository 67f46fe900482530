import VouchSpec.Api.Isolation
import VouchSpec.Library.Pool

/-! Requests of several tenants that run side by side. What a tenant is answered
does not depend on the requests of the others. -/

namespace VouchSpec

open Access Program

namespace Api

variable (p : Platform) (keyring : Keyring)

/-- The tenant that a request is made by. -/
def Request.owner? (shop : Shop) (request : Request) : Option String :=
  (request.credential >>= fun apiKey =>
    shop.access.authenticateApiKey p keyring shop.commerce apiKey).toOption

/-- The idempotency key that a request carries. -/
def Action.idempotencyKey? : Action → Option String
  | .postQuote _ key => key.toOption
  | .postOrder _ key => key.toOption
  | _ => none

/-- Two files, used through the API since the same start, that hold the same
share of the tenant. -/
structure Agrees (usage : Usage) (tenantId : String) (start left right : Shop) : Prop where
  soundLeft : usage.Sound p keyring left
  soundRight : usage.Sound p keyring right
  tenants : left.access.tenants = start.access.tenants
  share : usage.share p keyring tenantId left = usage.share p keyring tenantId right

variable {p keyring} {settings : Settings} {usage : Usage} {tenantId : String} {start : Shop}

section
variable {left right : Shop} (agrees : Agrees p keyring usage tenantId start left right)
include agrees

theorem Agrees.commerce : usage.commerceShare p keyring tenantId left.commerce =
    usage.commerceShare p keyring tenantId right.commerce := congrArg Shop.commerce agrees.share

theorem Agrees.access : Usage.accessShare tenantId left.access = Usage.accessShare tenantId right.access :=
  congrArg Shop.access agrees.share

theorem Agrees.environment : left.commerce.environment = right.commerce.environment :=
  agrees.soundLeft.partitioned.environment.trans agrees.soundRight.partitioned.environment.symm

end

section
variable {Value : Type} {post : Value → Prop}

/-- Two outcomes with the same share end alike. -/
private theorem sameEnd {Store : Type} {share : Store → Store} {first second : Except Raised (Store × Value)}
    {agree : Shop → Shop → Prop} (left right : Store → Shop)
    (hSame : Prod.map share id <$> first = Prod.map share id <$> second)
    (hAgree : ∀ after later value, first = .ok (after, value) → second = .ok (later, value) →
      share after = share later → agree (left after) (right later) ∧ post value) :
    SameEnd agree post (do let (after, value) ← first; return (left after, value))
      (do let (after, value) ← second; return (right after, value)) := by
  cases hFirst : first with
  | error error =>
      rw [hFirst] at hSame
      cases hSecond : second with
      | error other =>
          rw [hSecond] at hSame
          cases hSame
          exact .error error
      | ok result =>
          rw [hSecond] at hSame
          cases hSame
  | ok result =>
      rw [hFirst] at hSame
      cases hSecond : second with
      | error other =>
          rw [hSecond] at hSame
          cases hSame
      | ok other =>
          rw [hSecond] at hSame
          obtain ⟨after, value⟩ := result
          obtain ⟨later, same⟩ := other
          obtain ⟨hShare, hValue⟩ := Prod.mk.inj (Except.ok.inj hSame)
          obtain rfl : value = same := hValue
          obtain ⟨hAfter, hPost⟩ := hAgree after later value hFirst hSecond hShare
          exact .ok hAfter hPost

/-- An operation of the commerce store that acts on the tenant's share as on
the file. -/
theorem alike_onCommerce {operation : Commerce → Except Raised (Commerce × Value)}
    (hSound : ∀ shop after value, usage.Sound p keyring shop →
      operation shop.commerce = .ok (after, value) →
      usage.Sound p keyring { shop with commerce := after } ∧ post value)
    (hShare : ∀ shop, usage.Sound p keyring shop →
      usage.commerceOutcome p keyring tenantId (operation shop.commerce) =
        operation (usage.commerceShare p keyring tenantId shop.commerce)) :
    Alike (Agrees p keyring usage tenantId start) post (onCommerce operation) (onCommerce operation) := by
  refine .call fun left right agrees => ?_
  have hSame : usage.commerceOutcome p keyring tenantId (operation left.commerce) =
      usage.commerceOutcome p keyring tenantId (operation right.commerce) := by
    rw [hShare left agrees.soundLeft, hShare right agrees.soundRight, agrees.commerce]
  refine sameEnd (fun commerce => { left with commerce }) (fun commerce => { right with commerce })
    hSame ?_
  intro after later value hLeft hRight hAfter
  obtain ⟨soundLeft, hPost⟩ := hSound left after value agrees.soundLeft hLeft
  refine ⟨⟨soundLeft, (hSound right later value agrees.soundRight hRight).1, agrees.tenants, ?_⟩, hPost⟩
  unfold Usage.share
  rw [hAfter, agrees.access]

theorem alike_onAccess {operation : Shop → Except Raised (Access × Value)}
    (hSound : ∀ shop after value, usage.Sound p keyring shop → operation shop = .ok (after, value) →
      usage.Sound p keyring { shop with access := after } ∧
        after.tenants = shop.access.tenants ∧ post value)
    (hShare : ∀ shop, usage.Sound p keyring shop →
      Usage.accessOutcome tenantId (operation shop) =
        operation (usage.share p keyring tenantId shop)) :
    Alike (Agrees p keyring usage tenantId start) post (onAccess operation) (onAccess operation) := by
  refine .call fun left right agrees => ?_
  have hSame : Usage.accessOutcome tenantId (operation left) =
      Usage.accessOutcome tenantId (operation right) := by
    rw [hShare left agrees.soundLeft, hShare right agrees.soundRight, agrees.share]
  refine sameEnd (fun access => { left with access }) (fun access => { right with access }) hSame ?_
  intro after later value hLeft hRight hAfter
  obtain ⟨soundLeft, hTenants, hPost⟩ := hSound left after value agrees.soundLeft hLeft
  refine ⟨⟨soundLeft, (hSound right later value agrees.soundRight hRight).1,
    hTenants.trans agrees.tenants, ?_⟩, hPost⟩
  unfold Usage.share
  rw [hAfter, agrees.commerce]

/-- A read that only sees the tenant's share. -/
theorem alike_read {body : Shop → Except Raised Value}
    (hPost : ∀ shop value, usage.Sound p keyring shop → body shop = .ok value → post value)
    (hShare : ∀ shop, usage.Sound p keyring shop →
      body (usage.share p keyring tenantId shop) = body shop) :
    Alike (Agrees p keyring usage tenantId start) post (read body) (read body) := by
  refine .read ?_ fun left _ value agrees => hPost left value agrees.soundLeft
  intro left right agrees
  rw [← hShare left agrees.soundLeft, ← hShare right agrees.soundRight, agrees.share]

/-- An operation of the commerce store outside the tenant's share. -/
theorem quiet_onCommerce {operation : Commerce → Except Raised (Commerce × Value)}
    (hQuiet : ∀ shop after value, usage.Sound p keyring shop →
      operation shop.commerce = .ok (after, value) →
      usage.Sound p keyring { shop with commerce := after } ∧ post value ∧
        usage.commerceShare p keyring tenantId after =
          usage.commerceShare p keyring tenantId shop.commerce) :
    Quiet (Agrees p keyring usage tenantId start) post (onCommerce operation) := by
  refine .call fun left right after value agrees hRun => ?_
  simp only [Except.bind_eq_ok_iff, Except.pure_eq_ok_iff, Prod.mk.injEq, Prod.exists] at hRun
  obtain ⟨commerce, _, hOperation, rfl, rfl⟩ := hRun
  obtain ⟨sound, hPost, hShare⟩ := hQuiet left commerce _ agrees.soundLeft hOperation
  refine ⟨⟨sound, agrees.soundRight, agrees.tenants, ?_⟩, hPost⟩
  rw [← agrees.share]
  unfold Usage.share
  rw [hShare]

theorem quiet_onAccess {operation : Shop → Except Raised (Access × Value)}
    (hQuiet : ∀ shop after value, usage.Sound p keyring shop → operation shop = .ok (after, value) →
      usage.Sound p keyring { shop with access := after } ∧
        after.tenants = shop.access.tenants ∧ post value ∧
        Usage.accessShare tenantId after = Usage.accessShare tenantId shop.access) :
    Quiet (Agrees p keyring usage tenantId start) post (onAccess operation) := by
  refine .call fun left right after value agrees hRun => ?_
  simp only [Except.bind_eq_ok_iff, Except.pure_eq_ok_iff, Prod.mk.injEq, Prod.exists] at hRun
  obtain ⟨access, _, hOperation, rfl, rfl⟩ := hRun
  obtain ⟨sound, hTenants, hPost, hShare⟩ := hQuiet left access _ agrees.soundLeft hOperation
  refine ⟨⟨sound, agrees.soundRight, hTenants.trans agrees.tenants, ?_⟩, hPost⟩
  rw [← agrees.share]
  unfold Usage.share
  rw [hShare]

theorem quiet_read {body : Shop → Except Raised Value}
    (hPost : ∀ shop value, usage.Sound p keyring shop → body shop = .ok value → post value) :
    Quiet (Agrees p keyring usage tenantId start) post (read body) :=
  .read fun left _ value agrees => hPost left value agrees.soundLeft

/-- A program for one tenant: it acts on the tenant's share as on the file, and
no other tenant notices it. -/
structure Isolated (p : Platform) (keyring : Keyring) (usage : Usage) (start : Shop) (owner : String)
    (post : Value → Prop) (program : Route Value) : Prop where
  alike : Alike (Agrees p keyring usage owner start) post program program
  quiet : ∀ tenantId, owner ≠ tenantId → Quiet (Agrees p keyring usage tenantId start) post program

end

namespace Isolated

variable {Value Next : Type} {owner : String} {post : Value → Prop} {final : Next → Prop}

theorem andThen (post : Value → Prop) {program : Route Value} {next : Value → Route Next}
    (isolated : Isolated p keyring usage start owner post program)
    (hNext : ∀ value, post value → Isolated p keyring usage start owner final (next value)) :
    Isolated p keyring usage start owner final (program >>= next) where
  alike := isolated.alike.andThen fun value hPost => (hNext value hPost).alike
  quiet tenantId hOther := (isolated.quiet tenantId hOther).andThen fun value hPost =>
    (hNext value hPost).quiet tenantId hOther

theorem ended {value : Value} (hPost : post value) :
    Isolated p keyring usage start owner post (pure value : Route Value) where
  alike := .returned hPost
  quiet _ _ := .returned hPost

theorem check {outcome : Except Raised Value} (hPost : ∀ value, outcome = .ok value → post value) :
    Isolated p keyring usage start owner post (Program.check outcome) where
  alike := .check hPost
  quiet _ _ := .check hPost

theorem read {body : Shop → Except Raised Value}
    (hPost : ∀ shop value, usage.Sound p keyring shop → body shop = .ok value → post value)
    (hShare : ∀ shop, usage.Sound p keyring shop → body (usage.share p keyring owner shop) = body shop) :
    Isolated p keyring usage start owner post (Program.read body) where
  alike := alike_read hPost hShare
  quiet _ _ := quiet_read hPost

theorem onCommerce {operation : Commerce → Except Raised (Commerce × Value)}
    (hSound : ∀ shop after value, usage.Sound p keyring shop →
      operation shop.commerce = .ok (after, value) →
      usage.Sound p keyring { shop with commerce := after } ∧ post value)
    (hShare : ∀ shop, usage.Sound p keyring shop →
      usage.commerceOutcome p keyring owner (operation shop.commerce) =
        operation (usage.commerceShare p keyring owner shop.commerce))
    (hOther : ∀ tenantId shop after value, owner ≠ tenantId → usage.Sound p keyring shop →
      operation shop.commerce = .ok (after, value) →
      usage.commerceShare p keyring tenantId after =
        usage.commerceShare p keyring tenantId shop.commerce) :
    Isolated p keyring usage start owner post (Api.onCommerce operation) where
  alike := alike_onCommerce hSound hShare
  quiet tenantId hNot := quiet_onCommerce fun shop after value sound hRun =>
    ⟨(hSound shop after value sound hRun).1, (hSound shop after value sound hRun).2,
      hOther tenantId shop after value hNot sound hRun⟩

theorem onAccess {operation : Shop → Except Raised (Access × Value)}
    (hSound : ∀ shop after value, usage.Sound p keyring shop → operation shop = .ok (after, value) →
      usage.Sound p keyring { shop with access := after } ∧
        after.tenants = shop.access.tenants ∧ post value)
    (hShare : ∀ shop, usage.Sound p keyring shop →
      Usage.accessOutcome owner (operation shop) = operation (usage.share p keyring owner shop))
    (hOther : ∀ tenantId shop after value, owner ≠ tenantId → usage.Sound p keyring shop →
      operation shop = .ok (after, value) →
      Usage.accessShare tenantId after = Usage.accessShare tenantId shop.access) :
    Isolated p keyring usage start owner post (Api.onAccess operation) where
  alike := alike_onAccess hSound hShare
  quiet tenantId hNot := quiet_onAccess fun shop after value sound hRun => by
    obtain ⟨hSoundAfter, hTenants, hPost⟩ := hSound shop after value sound hRun
    exact ⟨hSoundAfter, hTenants, hPost, hOther tenantId shop after value hNot sound hRun⟩

end Isolated

section
variable {shop : Shop} (sound : usage.Sound p keyring shop)
include sound

/-- An admitted call of the commerce store. -/
theorem Usage.Sound.commerce {call : Commerce.Call} {commerce : Commerce}
    (hAdmits : usage.Admits p keyring (.commerce call))
    (hCommitted : shop.commerce.committed p call = .ok commerce) :
    usage.Sound p keyring { shop with commerce } :=
  ⟨(sound.wellFormed.commerce_step hCommitted).1, sound.partitioned.commerce hAdmits hCommitted⟩

/-- A created order is one of its buyer's. -/
theorem Usage.Sound.createOrder {commerce : Commerce} {quoteId key buyer : String} {now : DateTime}
    {view : OrderView} (hQuote : usage.QuoteOf p keyring buyer quoteId)
    (hKey : usage.KeyOf p keyring buyer key)
    (hReturns : shop.commerce.createOrder p quoteId key buyer now = .ok (commerce, view)) :
    usage.Sound p keyring { shop with commerce } ∧ usage.OrderOf p keyring buyer view.orderId := by
  have hSound : usage.Sound p keyring { shop with commerce } := by
    refine sound.commerce (show usage.Admits p keyring (.commerce (.createOrder quoteId key buyer now)) from
      ⟨hQuote, hKey⟩) ?_
    simp only [Commerce.committed, hReturns]
    rfl
  obtain ⟨-, -, order, hOrder, -, -, hBuyer⟩ := Commerce.createOrder_stores hReturns
  obtain ⟨hStored, hId⟩ := Commerce.order?_eq_some.mp hOrder
  have owns := hSound.partitioned.orders order hStored
  have hOf := owns.order
  change usage.OrderOf p keyring order.buyerReference order.orderId at hOf
  rw [hBuyer, hId] at hOf
  exact ⟨hSound, hOf⟩

/-- A call of the access store that leaves the commerce store as it is. -/
theorem Usage.Sound.access {call : Shop.Call} {access : Access} (hAdmits : usage.Admits p keyring call)
    (hReturns : ∃ event, shop.perform p keyring call = .ok ({ shop with access }, event)) :
    usage.Sound p keyring { shop with access } := by
  obtain ⟨_, hRun⟩ := hReturns
  exact sound.perform hAdmits hRun

end

section
variable (free : usage.CollisionFree p keyring)
include free

private theorem isolated_createQuote {value : Json} {owner quoteId paymentProvider : String} {now : DateTime}
    {live : Bool} (hOwner : usage.QuoteOf p keyring owner quoteId) :
    Isolated p keyring usage start owner (fun _ : Quote => True) (onCommerce fun db =>
      db.createQuote p value quoteId now paymentProvider live "") := by
  refine .onCommerce (fun shop after quote sound hRun => ?_) (fun shop _ => Usage.share_createQuote hOwner)
    fun _ _ _ _ hOther _ hRun => Usage.share_createQuote_other free hOwner hOther hRun
  refine ⟨sound.commerce (show usage.Admits p keyring
    (.commerce (.createQuote value quoteId now paymentProvider live "")) from ⟨owner, hOwner⟩) ?_, trivial⟩
  simp only [Commerce.committed, hRun]
  rfl

private theorem isolated_bindOrderable {owner quoteId key timestamp : String} {now : DateTime} {quote : Quote}
    (hOwner : usage.QuoteOf p keyring owner quoteId) :
    Isolated p keyring usage start owner (fun _ : Unit => True)
      (bindOrderable p keyring owner key timestamp now quote quoteId) := by
  unfold bindOrderable
  split
  · refine .onAccess (fun shop after value sound hRun => ?_)
      (fun shop sound => sound.share_bindQuote free hOwner)
      fun _ _ _ _ hOther _ hRun => Usage.share_bindQuote_other hOther hRun
    have hTenants : after.tenants = shop.access.tenants := by
      obtain ⟨-, -, -, -, -, ⟨_, -, -, -, rfl⟩ | ⟨-, _, -, rfl⟩⟩ := bindQuote_eq_ok.mp hRun
      · rfl
      · rfl
    refine ⟨sound.access (show usage.Admits p keyring
      (.bindQuote owner quoteId key (some timestamp) now.instant) from hOwner) ?_, hTenants, trivial⟩
    simp only [Shop.perform, Except.bind_eq_ok_iff, Except.pure_eq_ok_iff, Prod.exists]
    exact ⟨.committed, after, value, hRun, rfl⟩
  · exact .ended trivial

omit free in
private theorem isolated_checkQuoteLimit {owner quoteId : String} :
    Isolated p keyring usage start owner (fun _ : Unit => True) (checkQuoteLimit settings owner quoteId) := by
  refine .andThen (fun _ => True) (.read (fun _ _ _ _ => trivial) fun shop _ => ?_) fun owned _ => ?_
  · exact congrArg Except.ok Usage.accessShare_quoteOwned
  · split
    · exact .ended trivial
    · refine .read (fun _ _ _ _ => trivial) fun shop _ => ?_
      change ((Usage.accessShare owner shop.access).tenantResourceCounts owner >>= _) = _
      rw [Usage.accessShare_tenantResourceCounts]

omit free in
private theorem isolated_checkOrderLimit {owner quoteId : String} :
    Isolated p keyring usage start owner (fun _ : Unit => True) (checkOrderLimit settings owner quoteId) := by
  refine .andThen (fun _ => True) (.read (fun _ _ _ _ => trivial) fun shop _ => ?_) fun existing _ => ?_
  · exact congrArg Except.ok Usage.accessShare_orderForQuote
  · split
    · exact .ended trivial
    · refine .read (fun _ _ _ _ => trivial) fun shop _ => ?_
      change ((Usage.accessShare owner shop.access).tenantResourceCounts owner >>= _) = _
      rw [Usage.accessShare_tenantResourceCounts]

/-- The quotes of a tenant are isolated from the other tenants. -/
theorem isolated_postQuote {owner : String} {now : DateTime} {body : Except Raised Json}
    {key : Except Raised String} (hUsed : ∀ text, key = .ok text → (owner, text) ∈ usage.keys) :
    Isolated p keyring usage start owner (fun _ : Quote => True)
      (postQuote p keyring settings owner now body key) := by
  refine .andThen (fun _ => True) (.check fun _ _ => trivial) fun timestamp _ => ?_
  refine .andThen (fun _ => True) (.check fun _ _ => trivial) fun request _ => ?_
  refine .andThen (fun text => (owner, text) ∈ usage.keys) (.check hUsed) fun idempotencyKey hIdempotencyKey => ?_
  refine .andThen (usage.QuoteOf p keyring owner) (.check fun quoteId hDerived => ?_)
    fun quoteId hOwner => ?_
  · exact Usage.quoteOf_iff.mpr ⟨idempotencyKey, hIdempotencyKey, hDerived⟩
  refine .andThen _ isolated_checkQuoteLimit fun _ _ => ?_
  refine .andThen _ (isolated_createQuote free hOwner) fun quote _ => ?_
  exact .andThen _ (isolated_bindOrderable free hOwner) fun _ _ => .ended trivial

omit free in
private theorem isolated_authorizeQuote {owner quoteId : String} :
    Isolated p keyring usage start owner (fun _ : Unit => usage.QuoteOf p keyring owner quoteId)
      (Program.read fun shop => shop.access.authorizeQuote owner quoteId) := by
  refine .read (fun shop _ sound hRun => ?_) fun shop _ => Usage.accessShare_authorizeQuote
  obtain ⟨⟨row, hRow, hTenant⟩, -⟩ := require_eq_ok.mp hRun
  obtain ⟨hStored, hId⟩ := quoteBinding?_eq_some.mp hRow
  have hOf := sound.partitioned.bindings row hStored
  rwa [hTenant, hId] at hOf

/-- An authorized order is the tenant's own. -/
private theorem isolated_authorizeOrder {owner orderId token : String} {now : Option DateTime} {utcNow : Int} :
    Isolated p keyring usage start owner
      (fun _ : Authorization => usage.OrderOf p keyring owner orderId)
      (Program.read fun shop => shop.access.authorizeOrder p keyring owner orderId token now utcNow) := by
  refine .read (fun shop _ sound hRun => ?_) fun shop _ => Usage.accessShare_authorizeOrder
  obtain ⟨-, -, row, ⟨hRow, hTenant, -⟩, -⟩ := authorizeOrder_eq_ok.mp hRun
  obtain ⟨hStored, hId⟩ := orderBinding?_eq_some.mp hRow
  have hOf := (sound.orderOf free hStored).2
  rwa [hTenant, hId] at hOf

private theorem isolated_createOrder {owner quoteId key : String} {now : DateTime}
    (hQuote : usage.QuoteOf p keyring owner quoteId) (hKey : usage.KeyOf p keyring owner key) :
    Isolated p keyring usage start owner
      (fun view : OrderView => usage.OrderOf p keyring owner view.orderId)
      (onCommerce fun db => db.createOrder p quoteId key owner now) :=
  .onCommerce (fun _ _ _ sound hRun => sound.createOrder hQuote hKey hRun)
    (fun _ sound => sound.share_createOrder free hQuote hKey)
    fun _ _ _ _ hOther sound hRun => sound.share_createOrder_other free hQuote hKey hOther hRun

private theorem isolated_bindOrder {owner orderId quoteId timestamp : String} {now : DateTime}
    (hOwner : usage.OrderOf p keyring owner orderId) (hQuote : usage.QuoteOf p keyring owner quoteId) :
    Isolated p keyring usage start owner (fun _ : String => True) (onAccess fun shop =>
      shop.access.bindOrder p keyring shop.commerce owner orderId quoteId (some timestamp) now.instant) := by
  refine .onAccess (fun shop after token sound hRun => ?_)
    (fun shop sound => sound.share_bindOrder free hOwner hQuote)
    fun _ _ _ _ hOther _ hRun => Usage.share_bindOrder_other hOther hRun
  have hTenants : after.tenants = shop.access.tenants := by
    obtain ⟨-, ⟨_, -, -, -, -, -, -, rfl⟩ | ⟨-, _, -, -, rfl⟩⟩ := bindOrder_eq_ok.mp hRun
    · rfl
    · rfl
  refine ⟨sound.access (show usage.Admits p keyring
    (.bindOrder owner orderId quoteId (some timestamp) now.instant) from trivial) ?_, hTenants, trivial⟩
  simp only [Shop.perform, Except.bind_eq_ok_iff, Except.pure_eq_ok_iff, Prod.exists]
  exact ⟨_, after, token, hRun, rfl⟩

private theorem isolated_createCheckout {owner orderId timestamp : String}
    (hOwner : usage.OrderOf p keyring owner orderId) :
    Isolated p keyring usage start owner (fun _ : OrderView => True)
      (onCommerce fun db => FakePaymentProvider.createCheckout p db orderId timestamp) := by
  unfold FakePaymentProvider.createCheckout
  cases hPayment : FakePaymentProvider.paymentId p orderId with
  | error error =>
      refine .onCommerce (fun _ _ _ _ hRun => ?_) (fun _ _ => rfl) fun _ _ _ _ _ _ hRun => ?_
      · cases hRun
      · cases hRun
  | ok paymentId =>
      refine .onCommerce (fun shop after view sound hRun => ?_)
        (fun shop sound => sound.share_attachCheckout free hOwner hPayment)
        fun _ _ _ _ hOther sound hRun => sound.share_attachCheckout_other free hOwner hOther hRun
      refine ⟨sound.commerce (show usage.Admits p keyring
        (.commerce (.attachCheckout orderId paymentId timestamp none)) from ⟨hPayment, rfl⟩) ?_, trivial⟩
      change shop.commerce.attachCheckout p orderId paymentId timestamp none = _ at hRun
      simp only [Commerce.committed, hRun]
      rfl

theorem isolated_postOrder {owner : String} {now : DateTime} {body : Except Raised Json}
    {key : Except Raised String} (hUsed : ∀ text, key = .ok text → (owner, text) ∈ usage.keys) :
    Isolated p keyring usage start owner (fun _ : CreatedOrder => True)
      (postOrder p keyring settings owner now body key) := by
  refine .andThen (fun _ => True) (.check fun _ _ => trivial) fun timestamp _ => ?_
  refine .andThen (fun _ => True) (.check fun _ _ => trivial) fun value _ => ?_
  refine .andThen (fun _ => True) (.check fun _ _ => trivial) fun quoteId _ => ?_
  refine .andThen (fun text => (owner, text) ∈ usage.keys) (.check hUsed) fun text hText => ?_
  refine .andThen (usage.KeyOf p keyring owner) (.check fun internalKey hDerived => ?_)
    fun internalKey hKey => ?_
  · exact Usage.keyOf_iff.mpr ⟨text, hText, hDerived⟩
  refine .andThen _ isolated_authorizeQuote fun _ hQuote => ?_
  refine .andThen _ isolated_checkOrderLimit fun _ _ => ?_
  refine .andThen _ (isolated_createOrder free hQuote hKey) fun order hOrder => ?_
  refine .andThen _ (isolated_bindOrder free hOrder hQuote) fun token _ => ?_
  refine .andThen _ (isolated_authorizeOrder free) fun state _ => ?_
  exact .andThen _ (isolated_createCheckout free hOrder) fun _ _ => .ended trivial

theorem isolated_getOrder {owner orderId : String} {now : DateTime} {token : Except Raised String} :
    Isolated p keyring usage start owner (fun _ : PublicOrder => True)
      (getOrder p keyring owner now orderId token) := by
  refine .andThen (fun _ => True) (.check fun _ _ => trivial) fun token _ => ?_
  refine .andThen _ (isolated_authorizeOrder free) fun _ hOrder => ?_
  refine .andThen (fun _ => True) (.read (fun _ _ _ _ => trivial) fun shop sound => ?_) fun _ _ =>
    .ended trivial
  exact sound.share_getOrder free hOrder

theorem isolated_getResult {owner orderId : String} {now : DateTime} {token : Except Raised String} :
    Isolated p keyring usage start owner (fun _ : Bytes × String => True)
      (getResult p keyring owner now orderId token) := by
  refine .andThen (fun _ => True) (.check fun _ _ => trivial) fun token _ => ?_
  refine .andThen _ (isolated_authorizeOrder free) fun _ _ => ?_
  refine .andThen _ (isolated_authorizeOrder free) fun _ _ => ?_
  refine .andThen (fun _ => True) (.read (fun _ _ _ _ => trivial) fun shop _ => ?_) fun _ _ =>
    .ended trivial
  exact Usage.accessShare_storedResult

omit free in
private theorem isolated_authorizeChange {owner orderId token : String} {updatedAt : Option String}
    {utcNow : Int} : Isolated p keyring usage start owner (fun _ : String × Int => True)
      (Program.read fun shop => shop.access.authorizeChange p keyring owner orderId token updatedAt utcNow) :=
  .read (fun _ _ _ _ => trivial) fun _ _ => Usage.accessShare_authorizeChange

theorem isolated_rotateToken {owner orderId : String} {now : DateTime} {body : Except Raised Json}
    {token : Except Raised String} : Isolated p keyring usage start owner (fun _ : RotatedToken => True)
      (rotateToken p keyring owner now orderId body token) := by
  refine .andThen (fun _ => True) (.check fun _ _ => trivial) fun timestamp _ => ?_
  refine .andThen (fun _ => True) (.check fun _ _ => trivial) fun value _ => ?_
  refine .andThen (fun _ => True) (.check fun _ _ => trivial) fun _ _ => ?_
  refine .andThen (fun _ => True) (.check fun _ _ => trivial) fun current _ => ?_
  refine .andThen _ isolated_authorizeChange fun change _ => ?_
  obtain ⟨updatedAt, updated⟩ := change
  refine .andThen (fun _ => True) (.onAccess (fun shop after token sound hRun => ?_)
    (fun shop _ => Usage.share_commitRotation)
    fun _ _ _ _ hOther _ hRun => Usage.share_commitRotation_other hOther hRun) fun token _ => ?_
  · have hTenants : after.tenants = shop.access.tenants := by
      obtain ⟨_, _, -, -, -, -, -, -, rfl⟩ := commitRotation_ok hRun
      rfl
    refine ⟨sound.access (show usage.Admits p keyring
      (.commitRotation ⟨owner, orderId, current, updatedAt, updated⟩) from trivial) ?_, hTenants, trivial⟩
    simp only [Shop.perform, Except.bind_eq_ok_iff, Except.pure_eq_ok_iff, Prod.exists]
    exact ⟨_, after, token, hRun, rfl⟩
  · exact .andThen _ (isolated_authorizeOrder free) fun _ _ => .ended trivial

omit free in
theorem isolated_revokeToken {owner orderId : String} {now : DateTime} {body : Except Raised Json}
    {token : Except Raised String} : Isolated p keyring usage start owner (fun _ : String => True)
      (revokeToken p keyring owner now orderId body token) := by
  refine .andThen (fun _ => True) (.check fun _ _ => trivial) fun timestamp _ => ?_
  refine .andThen (fun _ => True) (.check fun _ _ => trivial) fun value _ => ?_
  refine .andThen (fun _ => True) (.check fun _ _ => trivial) fun _ _ => ?_
  refine .andThen (fun _ => True) (.check fun _ _ => trivial) fun current _ => ?_
  refine .andThen _ isolated_authorizeChange fun change _ => ?_
  obtain ⟨updatedAt, updated⟩ := change
  refine .andThen (fun _ => True) (.onAccess (fun shop after result sound hRun => ?_)
    (fun shop _ => Usage.share_commitRevocation)
    fun _ _ _ _ hOther _ hRun => Usage.share_commitRevocation_other hOther hRun) fun _ _ => .ended trivial
  have hTenants : after.tenants = shop.access.tenants := by
    obtain ⟨_, _, -, -, -, -, -, rfl⟩ := commitRevocation_ok hRun
    rfl
  refine ⟨sound.access (show usage.Admits p keyring
    (.commitRevocation ⟨owner, orderId, current, updatedAt, updated⟩) from trivial) ?_, hTenants, trivial⟩
  simp only [Shop.perform, Except.bind_eq_ok_iff, Except.pure_eq_ok_iff, Prod.exists]
  exact ⟨_, after, result, hRun, rfl⟩

/-- What a tenant's request does is isolated from the other tenants. -/
theorem isolated_serve {owner : String} {now : DateTime} {action : Action}
    (hUsed : ∀ text, action.idempotencyKey? = some text → (owner, text) ∈ usage.keys) :
    Isolated p keyring usage start owner (fun _ : Reply => True)
      (serve p keyring settings owner now action) := by
  cases action with
  | postQuote body key =>
      refine .andThen _ (isolated_postQuote free fun text hKey => ?_) fun _ _ => .ended trivial
      exact hUsed text (by rw [hKey]; rfl)
  | postOrder body key =>
      refine .andThen _ (isolated_postOrder free fun text hKey => ?_) fun _ _ => .ended trivial
      exact hUsed text (by rw [hKey]; rfl)
  | getOrder orderId token => exact .andThen _ (isolated_getOrder free) fun _ _ => .ended trivial
  | getResult orderId token => exact .andThen _ (isolated_getResult free) fun _ _ => .ended trivial
  | rotateToken orderId body token =>
      exact .andThen _ (isolated_rotateToken free) fun _ _ => .ended trivial
  | revokeToken orderId body token => exact .andThen _ isolated_revokeToken fun _ _ => .ended trivial

end

/-- The tenants are those of the start, so that a credential means the same. -/
private theorem authenticateApiKey_same {left : Shop} {apiKey : String}
    (hTenants : left.access.tenants = start.access.tenants)
    (hEnvironment : left.commerce.environment = start.commerce.environment) :
    left.access.authenticateApiKey p keyring left.commerce apiKey =
      start.access.authenticateApiKey p keyring start.commerce apiKey := by
  unfold authenticateApiKey tenantByKey?
  rw [hTenants, hEnvironment]

section
variable (sound : usage.Sound p keyring start)
include sound

private theorem Agrees.authenticateApiKey {left right : Shop} {apiKey : String}
    (agrees : Agrees p keyring usage tenantId start left right) :
    left.access.authenticateApiKey p keyring left.commerce apiKey =
      start.access.authenticateApiKey p keyring start.commerce apiKey :=
  authenticateApiKey_same agrees.tenants
    (agrees.soundLeft.partitioned.environment.trans sound.partitioned.environment.symm)

/-- Authentication gives the tenant that the credential has at the start. -/
private theorem alike_authenticate {request : Request} :
    Alike (Agrees p keyring usage tenantId start)
      (fun owner => request.owner? p keyring start = some owner)
      (authenticate p keyring request.credential) (authenticate p keyring request.credential) := by
  unfold authenticate
  refine .andThen (.check fun _ h => h) fun apiKey hCredential => ?_
  refine .read (fun left right agrees => ?_) fun left _ owner agrees hRun => ?_
  · rw [agrees.authenticateApiKey sound]
    refine (authenticateApiKey_same ?_ ?_).symm
    · exact (congrArg Access.tenants agrees.access).symm.trans agrees.tenants
    · exact agrees.soundRight.partitioned.environment.trans sound.partitioned.environment.symm
  · rw [agrees.authenticateApiKey sound] at hRun
    unfold Request.owner?
    rw [hCredential]
    exact congrArg Except.toOption hRun

private theorem quiet_authenticate {request : Request} :
    Quiet (Agrees p keyring usage tenantId start)
      (fun owner => request.owner? p keyring start = some owner)
      (authenticate p keyring request.credential) := by
  unfold authenticate
  refine .andThen (.check fun _ h => h) fun apiKey hCredential => ?_
  refine .read fun left _ owner agrees hRun => ?_
  rw [agrees.authenticateApiKey sound] at hRun
  unfold Request.owner?
  rw [hCredential]
  exact congrArg Except.toOption hRun

end

/-- The requests of a run, before any of them has been served. -/
def arrived {Thread : Type} (p : Platform) (keyring : Keyring) (settings : Settings) (start : Shop)
    (requests : Thread → Request) : Pool Thread Shop Raised Reply :=
  ⟨start, fun thread => handle p keyring settings (requests thread)⟩

/-- The response to a request that has been served. -/
def response? {Thread : Type} (pool : Pool Thread Shop Raised Reply) (thread : Thread) : Option Response :=
  (pool.threads thread).outcome?.map respond

/-- In any interleaving of the requests of several tenants, to a file that was
filled through the API, each response to a tenant is the one that it receives
when the requests of all other tenants are left out. -/
theorem noninterference {Thread : Type} [DecidableEq Thread] (p : Platform) (keyring : Keyring)
    (settings : Settings) {usage : Usage} (free : usage.CollisionFree p keyring) {start : Shop}
    (filled : usage.Filled p keyring start) (requests : Thread → Request)
    (hUsed : ∀ thread owner key, (requests thread).owner? p keyring start = some owner →
      (requests thread).action.idempotencyKey? = some key → (owner, key) ∈ usage.keys)
    (tenantId : String) (schedule : List Thread) (thread : Thread)
    (hOwner : (requests thread).owner? p keyring start = some tenantId) :
    response? ((arrived p keyring settings start requests).run schedule) thread =
      response? ((arrived p keyring settings start requests).run (schedule.filter fun other =>
        ((requests other).owner? p keyring start).all fun owner => owner = tenantId)) thread := by
  have sound := filled.sound
  let mine : Thread → Prop := fun other =>
    ((requests other).owner? p keyring start).all (fun owner => owner = tenantId) = true
  have beside : Pool.Beside (Agrees p keyring usage tenantId start) mine
      (arrived p keyring settings start requests) (arrived p keyring settings start requests) := by
    refine ⟨⟨sound, sound, rfl, rfl⟩, fun other hMine => ?_, fun other hOther => ?_⟩
    · refine (alike_authenticate sound).andThen fun owner hTenant => ?_
      have hSame : owner = tenantId := by
        have hAll : ((requests other).owner? p keyring start).all (fun owner => owner = tenantId) = true := hMine
        rw [hTenant] at hAll
        exact of_decide_eq_true hAll
      subst hSame
      exact (isolated_serve free fun text => hUsed other owner text hTenant).alike
    · refine (quiet_authenticate sound).andThen fun owner hTenant => ?_
      refine (isolated_serve free fun text => hUsed other owner text hTenant).quiet tenantId ?_
      rintro rfl
      apply hOther
      change ((requests other).owner? p keyring start).all _ = true
      rw [hTenant]
      exact decide_eq_true rfl
  have hMine : mine thread := by
    change ((requests thread).owner? p keyring start).all _ = true
    rw [hOwner]
    exact decide_eq_true rfl
  have hRun := (beside.run schedule).outcome? hMine
  simp only [mine, Bool.decide_eq_true] at hRun
  unfold response?
  rw [hRun]

end Api

namespace Sample

def rivalId : String := "ten_000000000000000000000002"

def hiring : List Shop.Call :=
  [.provisionTenant (some tenantId) "" (drawn 1) none newYear,
    .provisionTenant (some rivalId) "" (drawn 2) none newYear]

/-- A file with two tenants. -/
def shared : Shop :=
  Runs.run (Shop.step .standard keyring) (Shop.empty .sandbox) hiring

/-- Both tenants use the same idempotency key. -/
def usage : Api.Usage := ⟨.sandbox, [(tenantId, "quote-key-0001"), (rivalId, "quote-key-0001")]⟩

theorem shared_filled : usage.Filled .standard keyring shared :=
  ⟨hiring, ⟨trivial, trivial, trivial⟩, rfl⟩

theorem usage_orders : usage.orders .standard keyring =
    [⟨tenantId, "q_8599ea6c46ee548621e96f9b", "oid_77a165e95a3d2bd66296bd90fec34984"⟩,
      ⟨rivalId, "q_cb2e096b2a2c40d47d18c071", "oid_ddabb5effb45deb186825f059589d6f6"⟩] := by decide +kernel

theorem usage_collisionFree : usage.CollisionFree .standard keyring := by
  apply Api.Usage.collisionFree_of_nodup
  · decide +kernel
  · decide +kernel
  · rw [usage_orders]
    decide +kernel
  · rw [usage_orders]
    decide +kernel

/-- The tenant, or its rival, asks for a quote. -/
def quoteRequestOf (rival : Bool) : Api.Request :=
  { quoteRequest 0 with credential := .ok (apiKeyOf .sandbox (drawn (if rival then 2 else 1))) }

theorem quoteRequestOf_owner (rival : Bool) :
    (quoteRequestOf rival).owner? .standard keyring shared = some (if rival then rivalId else tenantId) := by
  cases rival <;> decide +kernel

end Sample

/-- The tenant is answered as if its rival had not asked under the same key. -/
theorem Api.noninterference_two :
    response? ((arrived .standard Sample.keyring {} Sample.shared Sample.quoteRequestOf).run
      [false, true, true, false, true, false, true, false, true, false]) false =
    response? ((arrived .standard Sample.keyring {} Sample.shared Sample.quoteRequestOf).run
      ([false, true, true, false, true, false, true, false, true, false].filter fun other =>
        ((Sample.quoteRequestOf other).owner? .standard Sample.keyring Sample.shared).all
          fun owner => owner = Sample.tenantId)) false := by
  refine noninterference .standard Sample.keyring {} Sample.usage_collisionFree Sample.shared_filled
    Sample.quoteRequestOf ?_ Sample.tenantId _ false (Sample.quoteRequestOf_owner false)
  intro rival owner key hOwner hKey
  obtain rfl := Option.some.inj ((Sample.quoteRequestOf_owner rival).symm.trans hOwner)
  obtain rfl := Option.some.inj hKey
  cases rival <;> decide

end VouchSpec
