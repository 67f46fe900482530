import VouchSpec.Commerce.Replay
import VouchSpec.Stripe.Adapter

/-! The emission of events to the ledger. What an emission ingests follows from
the fixed terms of its order, and an emission made again changes nothing. -/

namespace VouchSpec

namespace Commerce

/-- An event in canonical form is accepted as itself or not at all. -/
theorem validateEvent_toJson {p : Platform} {db : Commerce} {event other : ProviderEvent}
    (hValid : db.validateEvent p event.toJson = .ok other)
    (hEnvironment : event.environment = db.environment)
    (hCurrency : event.currency = freshValidationCurrency) : other = event := by
  obtain ⟨hSameEnvironment, hSameCurrency, hProvider, hId, hType, hPayment, hAmount, hFee,
    hOccurred⟩ := validateEvent_members hValid
  simp only [ProviderEvent.toJson, Json.get?, List.find?_cons, String.reduceEq, decide_false, decide_true, Option.map_some, Option.some.injEq, Json.str.injEq,
    Json.int.injEq, Int.natCast_inj, Provider.value_injective.eq_iff,
    EventType.value_injective.eq_iff] at hProvider hId hType hPayment hAmount hFee hOccurred
  cases other
  cases event
  simp_all

end Commerce

namespace Stripe

/-- What all events of one order have in common. -/
structure Terms where
  environment : Environment
  orderId : String
  paymentId : String
  amount : Nat

/-- The event that an emission ingests. -/
def Emission.event (p : Platform) (terms : Terms) (emission : Emission) : ProviderEvent where
  provider := .stripe
  environment := terms.environment
  eventId := emission.eventId p terms.environment terms.orderId
  type := emission.type
  paymentId := terms.paymentId
  amountMinor := terms.amount
  feeMinor := if emission.type = .captured then emission.fee.toNat else 0
  currency := freshValidationCurrency
  occurredAt := emission.occurredAt

/-- A view of the order under these terms. -/
structure Terms.Viewed (terms : Terms) (view : OrderView) : Prop where
  orderId : view.orderId = terms.orderId
  payment : view.providerPaymentId = some terms.paymentId
  amount : view.quotedAmountMinor = terms.amount
  currency : view.currency = freshValidationCurrency

/-- The store in which the order's payment is bound under these terms. -/
structure Terms.Bound (p : Platform) (terms : Terms) (db : Commerce) : Prop where
  wellFormed : Commerce.WellFormed p db
  environment : db.environment = terms.environment
  order : ∃ order, db.orderByPayment? terms.paymentId = some order ∧ order.orderId = terms.orderId ∧
    order.quotedAmountMinor = terms.amount

section
variable {p : Platform} {terms : Terms} {db after : Commerce}

theorem Terms.Bound.continues (bound : terms.Bound p db) (wellFormed : Commerce.WellFormed p after)
    (continues : db.Continues after) : terms.Bound p after := by
  obtain ⟨order, hOrder, hId, hAmount⟩ := bound.order
  obtain ⟨later, hLater, -, keeps⟩ := continues.bound bound.wellFormed hOrder
  exact ⟨wellFormed, continues.environment.trans bound.environment,
    later, hLater, keeps.orderId.trans hId, keeps.quotedAmountMinor.trans hAmount⟩

/-- Every view of the bound order is under the terms. -/
theorem Terms.Bound.viewed (bound : terms.Bound p db) {order : OrderRow} {view : OrderView}
    (hOrder : db.orderByPayment? terms.paymentId = some order) (shows : view.Shows order) :
    terms.Viewed view := by
  obtain ⟨found, hFound, hId, hAmount⟩ := bound.order
  obtain rfl : found = order := Option.some.inj (hFound.symm.trans hOrder)
  obtain ⟨hStored, hPayment⟩ := Commerce.orderByPayment?_eq_some.mp hOrder
  exact ⟨shows.orderId.trans hId, shows.providerPaymentId.trans hPayment,
    shows.quotedAmountMinor.trans hAmount,
    shows.currency.trans (bound.wellFormed.order_regular hStored).currency⟩

theorem Emission.toJson_eq {view : OrderView} (viewed : terms.Viewed view) {emission : Emission}
    (hFee : 0 ≤ emission.fee) :
    emission.toJson p terms.environment view = (emission.event p terms).toJson := by
  have hFeeMinor : (if emission.type = .captured then emission.fee else 0) =
      ((if emission.type = .captured then emission.fee.toNat else 0 : Nat) : Int) := by
    split
    · exact (Int.toNat_of_nonneg hFee).symm
    · rfl
  simp only [Emission.toJson, ProviderEvent.toJson, Emission.event, viewed.orderId, viewed.payment,
    viewed.amount, viewed.currency, hFeeMinor, Provider.value]

/-- The adapter and the ledger accept the emission. -/
def Emission.Accepted (p : Platform) (terms : Terms) (emission : Emission) : Prop :=
  (∃ instant, parseTime p emission.occurredAt = .ok instant) ∧
    (Commerce.empty terms.environment).validateEvent p (emission.event p terms).toJson =
      .ok (emission.event p terms)

/-- A call of the ledger returns with the state that the call commits. -/
theorem ledger_returns {Value : Type} {call : Commerce → Except Raised (Commerce × Value)}
    {store next : Store} {value : Value} :
    (ledger call).Returns store value next ↔
      call store.commerce = .ok (next.commerce, value) ∧ next = { store with commerce := next.commerce } := by
  unfold ledger
  simp only [Routine.returns_transaction, Except.bind_eq_ok_iff, Except.pure_eq_ok_iff, Prod.mk.injEq]
  constructor
  · rintro ⟨⟨commerce, _⟩, hCall, rfl, rfl⟩
    exact ⟨hCall, rfl⟩
  · rintro ⟨hCall, hNext⟩
    exact ⟨(next.commerce, value), hCall, hNext.symm, rfl⟩

/-- An emission ingests its event. -/
theorem emit_returns {readings : Readings} {view later : OrderView} {emission : Emission}
    {store next : Store} (bound : terms.Bound p store.commerce) (viewed : terms.Viewed view)
    (hFee : 0 ≤ emission.fee) :
    (emit p readings view emission).Returns store later next ↔
      emission.Accepted p terms ∧ ∃ result, later = result.order ∧
        store.commerce.ingestEvent p (emission.event p terms)
          (p.timestamp (readings.received emission.type)) = .ok (next.commerce, result) ∧
        next = { store with commerce := next.commerce } := by
  have hJson : emission.toJson p store.commerce.environment view = (emission.event p terms).toJson := by
    rw [bound.environment, Emission.toJson_eq viewed hFee]
  have hSame : ∀ value, store.commerce.validateEvent p value =
      (Commerce.empty terms.environment).validateEvent p value :=
    Commerce.validateEvent_congr bound.environment
  unfold emit
  simp only [Routine.returns_bind, Routine.returns_reading, Routine.returns_pure, ledger_returns,
    Commerce.ingestProviderEvent_eq_ok, Commerce.orElseNow_timestamp, Emission.Accepted]
  constructor
  · rintro ⟨instant, _, ⟨hParsed, rfl⟩, result, _, ⟨⟨event, _, hValid, -, hIngested⟩, hNext⟩, rfl, rfl⟩
    rw [hJson, hSame] at hValid
    obtain rfl := Commerce.validateEvent_toJson hValid rfl rfl
    exact ⟨⟨⟨instant, hParsed⟩, hValid⟩, result, rfl, hIngested, hNext⟩
  · rintro ⟨⟨⟨instant, hParsed⟩, hValid⟩, result, rfl, hIngested, hNext⟩
    rw [← hSame, ← hJson] at hValid
    exact ⟨instant, store, ⟨hParsed, rfl⟩, result, next,
      ⟨⟨_, _, hValid, Commerce.parseTimestamp_timestamp _ _, hIngested⟩, hNext⟩, rfl, rfl⟩

/-- The view shows the order to which the payment is bound. -/
def Terms.Shown (terms : Terms) (db : Commerce) (view : OrderView) : Prop :=
  ∃ order, db.orderByPayment? terms.paymentId = some order ∧ view.Shows order

theorem Terms.Bound.viewed_of_shown (bound : terms.Bound p db) {view : OrderView}
    (shown : terms.Shown db view) : terms.Viewed view := by
  obtain ⟨order, hOrder, shows⟩ := shown
  exact bound.viewed hOrder shows

/-- What returning emissions leave of the store. -/
structure Terms.Progress (p : Platform) (terms : Terms) (before after : Store) (view : OrderView) :
    Prop where
  bound : terms.Bound p after.commerce
  continues : before.commerce.Continues after.commerce
  frame : after = { before with commerce := after.commerce }
  shown : terms.Shown after.commerce view

/-- The ledger has taken in an emission. -/
def Emission.Taken (p : Platform) (terms : Terms) (db : Commerce) (emission : Emission) : Prop :=
  emission.Accepted p terms ∧ Commerce.Recorded p db (emission.event p terms)

theorem Emission.Taken.continues {emission : Emission} (taken : emission.Taken p terms db)
    (continues : db.Continues after) : emission.Taken p terms after :=
  ⟨taken.1, taken.2.continues continues⟩

/-- A returning emission is taken in. -/
theorem emit_taken {readings : Readings} {view later : OrderView} {emission : Emission}
    {store next : Store} (bound : terms.Bound p store.commerce) (viewed : terms.Viewed view)
    (hFee : 0 ≤ emission.fee) (hReturns : (emit p readings view emission).Returns store later next) :
    terms.Progress p store next later ∧ emission.Taken p terms next.commerce := by
  obtain ⟨hAccepted, result, rfl, hIngested, hNext⟩ := (emit_returns bound viewed hFee).mp hReturns
  obtain ⟨hRecorded, hShown⟩ := bound.wellFormed.ingestEvent_recorded hIngested
  obtain ⟨hAfter, continues⟩ :=
    (Commerce.ingestEvent_moves hIngested).wellFormed_continues bound.wellFormed
  exact ⟨⟨bound.continues hAfter continues, continues, hNext, hShown⟩, hAccepted, hRecorded⟩

/-- An emission that was taken in changes nothing when it is made again. -/
theorem emit_replay (readings : Readings) {view : OrderView} {emission : Emission} {store : Store}
    (bound : terms.Bound p store.commerce) (viewed : terms.Viewed view) (hFee : 0 ≤ emission.fee)
    (taken : emission.Taken p terms store.commerce) :
    ∃ later, (emit p readings view emission).Returns store later store ∧
      terms.Shown store.commerce later := by
  obtain ⟨order, hOrder, -⟩ := bound.order
  obtain ⟨result, hIngested, shows⟩ := Commerce.ingestEvent_replay taken.2 hOrder _
  exact ⟨result.order, (emit_returns bound viewed hFee).mpr ⟨taken.1, result, rfl, hIngested, rfl⟩,
    order, hOrder, shows⟩

/-- Emissions that return one after the other are all taken in. -/
theorem emitAll_taken {readings : Readings} {emissions : List Emission} {view later : OrderView}
    {store next : Store} (bound : terms.Bound p store.commerce)
    (shown : terms.Shown store.commerce view) (hFees : ∀ emission ∈ emissions, 0 ≤ emission.fee)
    (hReturns : (emitAll p readings view emissions).Returns store later next) :
    terms.Progress p store next later ∧
      ∀ emission ∈ emissions, emission.Taken p terms next.commerce := by
  induction emissions generalizing view store with
  | nil =>
      simp only [emitAll, Routine.returns_pure] at hReturns
      obtain ⟨rfl, rfl⟩ := hReturns
      exact ⟨⟨bound, .refl _, rfl, shown⟩, by simp⟩
  | cons emission rest ih =>
      simp only [emitAll, Routine.returns_bind] at hReturns
      obtain ⟨middleView, middle, hEmit, hRest⟩ := hReturns
      obtain ⟨progress, taken⟩ := emit_taken bound (bound.viewed_of_shown shown)
        (hFees emission List.mem_cons_self) hEmit
      obtain ⟨hProgress, hTaken⟩ := ih progress.bound progress.shown
        (fun other hOther => hFees other (List.mem_cons_of_mem _ hOther)) hRest
      refine ⟨⟨hProgress.bound, progress.continues.trans hProgress.continues, ?_, hProgress.shown⟩,
        List.forall_mem_cons.mpr ⟨taken.continues hProgress.continues, hTaken⟩⟩
      rw [hProgress.frame, progress.frame]

/-- Emissions that were taken in change nothing when they are made again. -/
theorem emitAll_replay (readings : Readings) {emissions : List Emission} {view : OrderView}
    {store : Store} (bound : terms.Bound p store.commerce) (shown : terms.Shown store.commerce view)
    (hFees : ∀ emission ∈ emissions, 0 ≤ emission.fee)
    (hTaken : ∀ emission ∈ emissions, emission.Taken p terms store.commerce) :
    ∃ later, (emitAll p readings view emissions).Returns store later store ∧
      terms.Shown store.commerce later := by
  induction emissions generalizing view with
  | nil => exact ⟨view, by simp [emitAll], shown⟩
  | cons emission rest ih =>
      obtain ⟨middle, hEmit, hMiddle⟩ := emit_replay readings bound
        (bound.viewed_of_shown shown) (hFees emission List.mem_cons_self)
        (hTaken emission List.mem_cons_self)
      obtain ⟨later, hRest, hLater⟩ := ih hMiddle
        (fun other hOther => hFees other (List.mem_cons_of_mem _ hOther))
        (fun other hOther => hTaken other (List.mem_cons_of_mem _ hOther))
      refine ⟨later, ?_, hLater⟩
      rw [emitAll, Routine.returns_bind]
      exact ⟨middle, store, hEmit, hRest⟩

end

end Stripe

end VouchSpec
