import VouchSpec.Stripe.Emission

/-! The courses that a reconciliation can take, and the facts of a snapshot
that decide between them. -/

namespace VouchSpec

namespace Stripe

namespace Snapshot

variable (snapshot : Snapshot) (checkoutId : String)

/-- The payment that the session names. -/
def paymentId? : Option String := do
  let session ← snapshot.checkout checkoutId
  (referenceId (member session "payment_intent") Pattern.paymentId "PaymentIntent").toOption

def payment? : Option Json := (snapshot.paymentId? checkoutId).bind snapshot.payment

/-- The latest charge of that payment. -/
def chargeId? : Option String := do
  let payment ← snapshot.payment? checkoutId
  (referenceId (member payment "latest_charge") Pattern.chargeId "Charge").toOption

def charge? : Option Json := (snapshot.chargeId? checkoutId).bind snapshot.charge

/-- The balance transaction of that charge. -/
def balance? : Option Json := do
  let charge ← snapshot.charge? checkoutId
  let balanceId ← (referenceId (member charge "balance_transaction") Pattern.balanceId
    "BalanceTransaction").toOption
  snapshot.balance balanceId

def Declined : Prop := ∃ payment ∈ snapshot.payment? checkoutId,
  member payment "status" = .str "canceled" ∨ member payment "status" = .str "requires_payment_method"

def Succeeded : Prop := ∃ payment ∈ snapshot.payment? checkoutId,
  member payment "status" = .str "succeeded"

def Available : Prop := ∃ balance ∈ snapshot.balance? checkoutId,
  member balance "status" = .str "available"

/-- The charge was refunded in full. -/
def Refunded (amount : Nat) : Prop := ∃ charge ∈ snapshot.charge? checkoutId,
  member charge "amount_refunded" = .int amount

def Disputed : Prop := ∃ charge ∈ snapshot.charge? checkoutId,
  member charge "disputed" = .bool true

instance : Decidable (snapshot.Declined checkoutId) := inferInstanceAs (Decidable (∃ _ ∈ _, _))
instance : Decidable (snapshot.Succeeded checkoutId) := inferInstanceAs (Decidable (∃ _ ∈ _, _))
instance : Decidable (snapshot.Available checkoutId) := inferInstanceAs (Decidable (∃ _ ∈ _, _))
instance (amount : Nat) : Decidable (snapshot.Refunded checkoutId amount) :=
  inferInstanceAs (Decidable (∃ _ ∈ _, _))
instance : Decidable (snapshot.Disputed checkoutId) := inferInstanceAs (Decidable (∃ _ ∈ _, _))

end Snapshot

/-- The terms of an order that no call changes. -/
structure SameTerms (left right : OrderView) : Prop where
  orderId : left.orderId = right.orderId
  quoteId : left.quoteId = right.quoteId
  provider : left.provider = right.provider
  quotedAmountMinor : left.quotedAmountMinor = right.quotedAmountMinor
  currency : left.currency = right.currency

section
variable {p : Platform} {adapter : Adapter} {snapshot : Snapshot} {db : Commerce}

/-- Two views of one order, at different times, show the same terms. -/
theorem SameTerms.of_keeps {left right : OrderView} {before after : OrderRow}
    (showsLater : left.Shows after) (shows : right.Shows before) (keeps : before.Keeps after) :
    SameTerms left right where
  orderId := by rw [showsLater.orderId, keeps.orderId, shows.orderId]
  quoteId := by rw [showsLater.quoteId, keeps.quoteId, shows.quoteId]
  provider := by rw [showsLater.provider, keeps.provider, shows.provider]
  quotedAmountMinor := by
    rw [showsLater.quotedAmountMinor, keeps.quotedAmountMinor, shows.quotedAmountMinor]
  currency := by rw [showsLater.currency, keeps.currency, shows.currency]

theorem asDict_eq_ok {value object : Json} : asDict value = .ok object ↔
    value = object ∧ ∃ members, value = .obj members := by
  cases value <;> simp [asDict]

theorem retrieve_eq_ok {endpoint : String → Option Json} {identifier : String} {object : Json} :
    retrieve endpoint identifier = .ok object ↔
      endpoint identifier = some object ∧ ∃ members, object = .obj members := by
  unfold retrieve
  simp only [Except.bind_eq_ok_iff, Except.ofOption_eq_ok_iff, asDict_eq_ok]
  constructor
  · rintro ⟨_, hFound, rfl, hObject⟩
    exact ⟨hFound, hObject⟩
  · rintro ⟨hFound, hObject⟩
    exact ⟨object, hFound, rfl, hObject⟩

theorem boundedInt_eq_ok {value : Json} {field : String} {maximum number : Int} :
    boundedInt value field maximum = .ok number ↔
      value = .int number ∧ 0 ≤ number ∧ number ≤ maximum := by
  unfold boundedInt
  simp only [Except.bind_eq_ok_iff, Except.ofOption_eq_ok_iff, require_eq_ok, Except.pure_eq_ok_iff,
    Json.int?_eq_some]
  constructor
  · rintro ⟨_, rfl, _, hBounds, rfl⟩
    exact ⟨rfl, hBounds⟩
  · rintro ⟨rfl, hBounds⟩
    exact ⟨number, rfl, (), hBounds, rfl⟩

theorem among_eq_ok {value : Json} {texts : List String} {found : Bool}
    (hAmong : among value texts = .ok found) :
    found = true ↔ ∃ text ∈ texts, value = .str text := by
  unfold among at hAmong
  split at hAmong <;> cases hAmong
  · simp
  · next hText _ _ =>
      constructor
      · simp
      · rintro ⟨text, -, rfl⟩
        exact absurd rfl (hText text)

/-- What a settled examination has read off the snapshot. -/
structure Settlement.Reads (settlement : Settlement) (snapshot : Snapshot) (checkoutId : String)
    (amount : Nat) : Prop where
  succeeded : snapshot.Succeeded checkoutId
  chargeId : snapshot.chargeId? checkoutId = some settlement.chargeId
  disputed : settlement.disputed = .bool true ↔ snapshot.Disputed checkoutId
  refunded : settlement.amountRefunded = amount ↔ snapshot.Refunded checkoutId amount
  available : settlement.balanceStatus = .available ↔ snapshot.Available checkoutId
  retrieved : (snapshot.charge? checkoutId).isSome ∧ (snapshot.balance? checkoutId).isSome
  fee : 0 ≤ settlement.fee

theorem examineCharge_eq_ok {environment : Environment} {order : OrderView}
    {paymentId chargeId : String} {charge : Json} {amountRefunded : Int}
    (hExamined : examineCharge environment order paymentId chargeId charge = .ok amountRefunded) :
    member charge "amount_refunded" = .int amountRefunded := by
  unfold examineCharge at hExamined
  simp only [Except.bind_eq_ok_iff, Except.pure_eq_ok_iff, boundedInt_eq_ok] at hExamined
  obtain ⟨_, -, refunded, ⟨hRefunded, -⟩, _, -, _, -, _, -, _, -, _, -, _, -, rfl⟩ := hExamined
  exact hRefunded

theorem examineBalance_eq_ok {order : OrderView} {chargeId balanceId : String} {balance : Json}
    {fee net : Int} {status : BalanceStatus}
    (hExamined : examineBalance order chargeId balanceId balance = .ok (fee, net, status)) :
    0 ≤ fee ∧ (status = .available ↔ member balance "status" = .str "available") := by
  unfold examineBalance at hExamined
  simp only [Except.bind_eq_ok_iff, Except.pure_eq_ok_iff, boundedInt_eq_ok, Prod.mk.injEq] at hExamined
  obtain ⟨_, -, found, ⟨-, hFee, -⟩, _, -, _, -, _, -, _, -, _, -, _, -, _, -, rfl, -, rfl⟩ := hExamined
  refine ⟨hFee, ?_⟩
  split <;> simp_all

/-- What an examination says is what the snapshot shows. -/
theorem examinePayment_reads {environment : Environment} {orderId checkoutId paymentId : String}
    {order : OrderView} {examination : Examination}
    (hPayment : snapshot.paymentId? checkoutId = some paymentId)
    (hExamined : examinePayment p adapter snapshot environment orderId order paymentId =
      .ok examination) :
    match examination with
    | .failed _ => snapshot.Declined checkoutId ∧ ¬snapshot.Succeeded checkoutId
    | .unpaid => ¬snapshot.Succeeded checkoutId
    | .settled settlement => settlement.Reads snapshot checkoutId order.quotedAmountMinor := by
  unfold examinePayment at hExamined
  simp only [Except.bind_eq_ok_iff, retrieve_eq_ok] at hExamined
  obtain ⟨payment, ⟨hFound, -⟩, _, -, _, -, _, -, _, -, declined, hDeclined, hRest⟩ := hExamined
  have hPaid : snapshot.payment? checkoutId = some payment := by
    rw [Snapshot.payment?, hPayment, Option.bind_some, hFound]
  have hAmong := among_eq_ok hDeclined
  split at hRest
  · next hFlag =>
      simp only [Except.bind_eq_ok_iff, Except.pure_eq_ok_iff] at hRest
      obtain ⟨createdAt, -, rfl⟩ := hRest
      have hStatus := hAmong.mp hFlag
      simp only [List.mem_cons, List.not_mem_nil, or_false, exists_eq_or_imp, exists_eq_left] at hStatus
      refine ⟨⟨payment, hPaid, hStatus⟩, ?_⟩
      rintro ⟨other, hOther, hSucceeded⟩
      obtain rfl : payment = other := Option.some.inj (hPaid.symm.trans hOther)
      rcases hStatus with hStatus | hStatus <;> simp [hStatus] at hSucceeded
  · split at hRest
    · next hStatus =>
        cases hRest
        rintro ⟨other, hOther, hSucceeded⟩
        obtain rfl : payment = other := Option.some.inj (hPaid.symm.trans hOther)
        exact hStatus hSucceeded
    · next hStatus =>
        simp only [Except.bind_eq_ok_iff, Except.pure_eq_ok_iff, retrieve_eq_ok, Prod.exists] at hRest
        obtain ⟨_, -, _, -, chargeId, hChargeId, charge, ⟨hCharge, -⟩, amountRefunded, hRefunded,
          balanceId, hBalanceId, balance, ⟨hBalance, -⟩, fee, net, status, hStatusRead, _, -, rfl⟩ := hRest
        have hChargeIdFound : snapshot.chargeId? checkoutId = some chargeId := by
          simp [Snapshot.chargeId?, hPaid, hChargeId, Except.toOption]
        have hChargeFound : snapshot.charge? checkoutId = some charge := by
          rw [Snapshot.charge?, hChargeIdFound, Option.bind_some, hCharge]
        have hBalanceFound : snapshot.balance? checkoutId = some balance := by
          simp [Snapshot.balance?, hChargeFound, hBalanceId, Except.toOption, hBalance]
        obtain ⟨hFee, hAvailable⟩ := examineBalance_eq_ok hStatusRead
        have hAmount := examineCharge_eq_ok hRefunded
        exact {
          succeeded := ⟨payment, hPaid, not_not.mp hStatus⟩
          chargeId := hChargeIdFound
          disputed := by simp [Snapshot.Disputed, hChargeFound]
          refunded := by simp [Snapshot.Refunded, hChargeFound, hAmount]
          available := by simp [Snapshot.Available, hBalanceFound, hAvailable]
          retrieved := ⟨by rw [hChargeFound]; rfl, by rw [hBalanceFound]; rfl⟩
          fee := hFee }

/-- The checks of a session only read the terms of the order. -/
theorem validateCheckout_congr {environment : Environment} {session : Json} {left right : OrderView}
    {quote : Quote} (agrees : SameTerms left right) :
    validateCheckout p adapter environment session left quote =
      validateCheckout p adapter environment session right quote := by
  unfold validateCheckout
  rw [agrees.orderId, agrees.quoteId, agrees.quotedAmountMinor, agrees.currency]

theorem examinePayment_congr {environment : Environment} {orderId paymentId : String}
    {left right : OrderView} (agrees : SameTerms left right) :
    examinePayment p adapter snapshot environment orderId left paymentId =
      examinePayment p adapter snapshot environment orderId right paymentId := by
  unfold examinePayment examineCharge examineBalance
  rw [agrees.quoteId, agrees.quotedAmountMinor, agrees.currency]

theorem openSession_eq_ok {orderId : String} {opened : Opened} :
    openSession p adapter snapshot db orderId = .ok opened ↔
      ∃ quote, db.getOrder orderId = .ok opened.order ∧ opened.order.provider = .stripe ∧
        opened.order.providerCheckoutId = some opened.checkoutId ∧
        db.getQuote opened.order.quoteId = .ok quote ∧
        retrieve snapshot.checkout opened.checkoutId = .ok opened.session ∧
        validateCheckout p adapter db.environment opened.session opened.order quote = .ok () := by
  unfold openSession
  simp only [Except.bind_eq_ok_iff, Except.pure_eq_ok_iff, Except.ofOption_eq_ok_iff, require_eq_ok]
  constructor
  · rintro ⟨order, hOrder, _, hProvider, checkoutId, hCheckout, quote, hQuote, session, hSession, _,
      hValid, rfl⟩
    exact ⟨quote, hOrder, hProvider, hCheckout, hQuote, hSession, hValid⟩
  · rintro ⟨quote, hOrder, hProvider, hCheckout, hQuote, hSession, hValid⟩
    exact ⟨opened.order, hOrder, (), hProvider, opened.checkoutId, hCheckout, quote, hQuote,
      opened.session, hSession, (), hValid, rfl⟩

/-- The emissions of a succeeded payment. -/
def Settlement.emissions (p : Platform) (settlement : Settlement) (quotedAmount : Int)
    (availableAt : String) (readings : Readings) : List Emission :=
  settlement.captured :: settlement.following p quotedAmount availableAt readings

/-- The row that a reconciliation adds unless it is there. -/
def Settlement.row (p : Platform) (settlement : Settlement) (orderId checkoutId paymentId : String)
    (sourceEventId : Option String) (quotedAmount currentTime : Int) : ReconciliationRow where
  orderId := orderId
  sourceEventId := sourceEventId
  checkoutId := checkoutId
  paymentId := paymentId
  chargeId := settlement.chargeId
  balanceTransactionId := settlement.balanceId
  snapshotDigest := p.textDigest (settlement.toJson checkoutId paymentId quotedAmount).text
  paymentState := settlement.state quotedAmount
  observedAt := p.timestamp currentTime

/-- The store with a reconciliation recorded. -/
def Store.record (store : Store) (row : ReconciliationRow) : Store :=
  { store with reconciliations := (store.reconciliations.insert? row).getD store.reconciliations }

/-- A returning settlement makes all its emissions, then records itself. -/
theorem settle_returns {readings : Readings} {currentTime : Int} {sourceEventId : Option String}
    {opened : Opened} {paymentId : String} {order : OrderView} {settlement : Settlement}
    {store next : Store} {result : Reconciled} :
    (settle p readings currentTime sourceEventId opened paymentId order settlement).Returns store
        result next ↔
      ∃ availableAt later middle checkoutId,
        settlement.availableTime p currentTime = .ok availableAt ∧
        (emitAll p readings order (settlement.emissions p order.quotedAmountMinor availableAt
          readings)).Returns store later middle ∧
        member opened.session "id" = .str checkoutId ∧
        result = ⟨settlement.state order.quotedAmountMinor, later⟩ ∧
        next = middle.record (settlement.row p opened.order.orderId checkoutId paymentId sourceEventId
          order.quotedAmountMinor currentTime) := by
  unfold settle recordReconciliation Settlement.emissions
  simp only [emitAll, Routine.returns_bind, Routine.returns_reading, Routine.returns_transaction,
    Routine.returns_pure, Except.ok.injEq, Prod.mk.injEq, Except.ofOption_eq_ok_iff, Json.str?_eq_some]
  constructor
  · rintro ⟨first, afterFirst, hFirst, availableAt, _, ⟨hAvailable, rfl⟩, later, middle, hRest,
      checkoutId, _, ⟨hId, rfl⟩, _, _, ⟨rfl, -⟩, rfl, rfl⟩
    exact ⟨availableAt, later, middle, checkoutId, hAvailable, ⟨first, _, hFirst, hRest⟩, hId, rfl, rfl⟩
  · rintro ⟨availableAt, later, middle, checkoutId, hAvailable, ⟨first, afterFirst, hFirst, hRest⟩, hId,
      rfl, rfl⟩
    exact ⟨first, afterFirst, hFirst, availableAt, afterFirst, ⟨hAvailable, rfl⟩, later, middle, hRest,
      checkoutId, middle, ⟨hId, rfl⟩, (), _, ⟨rfl, trivial⟩, rfl, rfl⟩

/-- The emission of a declined payment. -/
def failure (paymentId createdAt : String) : Emission where
  type := .failed
  reference := paymentId
  fee := 0
  occurredAt := createdAt

/-- The order, its session and its payment, read and bound. -/
structure Reached (p : Platform) (adapter : Adapter) (snapshot : Snapshot) (orderId : String)
    (readings : Readings) (before after : Commerce) (start : Opened) (paymentId : String)
    (view : OrderView) : Prop where
  opened : openSession p adapter snapshot before orderId = .ok start
  present : member start.session "payment_intent" ≠ .null
  reference : referenceId (member start.session "payment_intent") Pattern.paymentId "PaymentIntent" =
    .ok paymentId
  bound : before.bindProviderPayment p orderId paymentId start.checkoutId
    (p.timestamp readings.bound) = .ok (after, view)

/-- The ways in which a reconciliation returns. -/
inductive Course (p : Platform) (adapter : Adapter) (snapshot : Snapshot) (orderId : String)
    (sourceEventId : Option String) (currentTime : Int) (readings : Readings) (store : Store) :
    Reconciled → Store → Prop where
  | absent {opened : Opened} (hOpened : openSession p adapter snapshot store.commerce orderId = .ok opened)
      (hAbsent : member opened.session "payment_intent" = .null) :
      Course p adapter snapshot orderId sourceEventId currentTime readings store
        ⟨absentState opened.session, opened.order⟩ store
  | pending {opened : Opened} {paymentId : String} {view : OrderView} {after : Commerce}
      (reached : Reached p adapter snapshot orderId readings store.commerce after opened paymentId view)
      (hExamined : examinePayment p adapter snapshot after.environment orderId view paymentId =
        .ok .unpaid) :
      Course p adapter snapshot orderId sourceEventId currentTime readings store
        ⟨"pending_payment", view⟩ { store with commerce := after }
  | failed {opened : Opened} {paymentId createdAt : String} {view later : OrderView} {after : Commerce}
      {next : Store}
      (reached : Reached p adapter snapshot orderId readings store.commerce after opened paymentId view)
      (hExamined : examinePayment p adapter snapshot after.environment orderId view paymentId =
        .ok (.failed createdAt))
      (hEmitted : (emit p readings view (failure paymentId createdAt)).Returns
        { store with commerce := after } later next) :
      Course p adapter snapshot orderId sourceEventId currentTime readings store ⟨"failed", later⟩ next
  | settled {opened : Opened} {paymentId : String} {view : OrderView} {after : Commerce} {next : Store}
      {settlement : Settlement} {result : Reconciled}
      (reached : Reached p adapter snapshot orderId readings store.commerce after opened paymentId view)
      (hExamined : examinePayment p adapter snapshot after.environment orderId view paymentId =
        .ok (.settled settlement))
      (hSettled : (settle p readings currentTime sourceEventId opened paymentId view settlement).Returns
        { store with commerce := after } result next) :
      Course p adapter snapshot orderId sourceEventId currentTime readings store result next

section
variable {orderId : String} {sourceEventId : Option String} {currentTime : Int} {readings : Readings}
  {store next : Store} {result : Reconciled}

theorem reconcileBound_returns {start : Opened} {paymentId : String} {view : OrderView} :
    (reconcileBound p adapter snapshot orderId sourceEventId currentTime readings start paymentId
        view).Returns store result next ↔
      ∃ examination, examinePayment p adapter snapshot store.commerce.environment orderId view paymentId =
          .ok examination ∧
        match examination with
        | .failed createdAt => ∃ later, result = ⟨"failed", later⟩ ∧
            (emit p readings view (failure paymentId createdAt)).Returns store later next
        | .unpaid => result = ⟨"pending_payment", view⟩ ∧ next = store
        | .settled settlement => (settle p readings currentTime sourceEventId start paymentId view
            settlement).Returns store result next := by
  unfold reconcileBound
  rw [Routine.returns_bind]
  refine exists_congr fun examination => ?_
  simp only [Routine.returns_reading, and_assoc, exists_eq_left', exists_and_left]
  refine and_congr_right fun _ => ?_
  cases examination with
  | failed createdAt =>
      simp only [Routine.returns_bind, Routine.returns_pure]
      constructor
      · rintro ⟨later, _, hEmitted, rfl, rfl⟩
        exact ⟨later, rfl, hEmitted⟩
      · rintro ⟨later, rfl, hEmitted⟩
        exact ⟨later, next, hEmitted, rfl, rfl⟩
  | unpaid =>
      rw [Routine.returns_pure]
      exact and_congr eq_comm eq_comm
  | settled settlement => exact Iff.rfl

theorem reconcileOpened_returns {start : Opened} :
    (reconcileOpened p adapter snapshot orderId sourceEventId currentTime readings start).Returns store
        result next ↔
      (member start.session "payment_intent" = .null ∧
        result = ⟨absentState start.session, start.order⟩ ∧ next = store) ∨
      (member start.session "payment_intent" ≠ .null ∧ ∃ paymentId view after,
        referenceId (member start.session "payment_intent") Pattern.paymentId "PaymentIntent" =
          .ok paymentId ∧
        store.commerce.bindProviderPayment p orderId paymentId start.checkoutId
          (p.timestamp readings.bound) = .ok (after, view) ∧
        (reconcileBound p adapter snapshot orderId sourceEventId currentTime readings start paymentId
          view).Returns { store with commerce := after } result next) := by
  unfold reconcileOpened
  split
  · next hAbsent =>
      rw [Routine.returns_pure]
      constructor
      · rintro ⟨rfl, rfl⟩
        exact Or.inl ⟨hAbsent, rfl, rfl⟩
      · rintro (⟨-, rfl, rfl⟩ | ⟨hPresent, -⟩)
        · exact ⟨rfl, rfl⟩
        · exact absurd hAbsent hPresent
  · next hPresent =>
      simp only [Routine.returns_bind, Routine.returns_reading, ledger_returns]
      constructor
      · rintro ⟨paymentId, _, ⟨hReference, rfl⟩, view, middle, ⟨hBound, hMiddle⟩, hRest⟩
        rw [hMiddle] at hRest
        exact Or.inr ⟨hPresent, paymentId, view, middle.commerce, hReference, hBound, hRest⟩
      · rintro (⟨hAbsent, -⟩ | ⟨-, paymentId, view, after, hReference, hBound, hRest⟩)
        · exact absurd hAbsent hPresent
        · exact ⟨paymentId, store, ⟨hReference, rfl⟩, view, { store with commerce := after },
            ⟨hBound, rfl⟩, hRest⟩

/-- A reconciliation returns exactly by one of its courses. -/
theorem reconcileOrder_returns {observedAt : Option DateTime} :
    (reconcileOrder p adapter snapshot orderId sourceEventId observedAt readings).Returns store
        result next ↔
      Pattern.orderId orderId = true ∧ (observedAt.getD ⟨readings.now, true⟩).aware = true ∧
        Course p adapter snapshot orderId sourceEventId (observedAt.getD ⟨readings.now, true⟩).instant
          readings store result next := by
  unfold reconcileOrder awareDatetime
  simp only [Routine.returns_bind, Routine.returns_reading, require_eq_ok, Except.bind_eq_ok_iff,
    Except.pure_eq_ok_iff]
  constructor
  · rintro ⟨_, _, ⟨hPattern, rfl⟩, currentTime, _, ⟨⟨_, hAware, rfl⟩, rfl⟩, start, _, ⟨hOpened, rfl⟩,
      hRest⟩
    refine ⟨hPattern, hAware, ?_⟩
    rcases reconcileOpened_returns.mp hRest with
      ⟨hAbsent, rfl, rfl⟩ | ⟨hPresent, paymentId, view, after, hReference, hBound, hRest⟩
    · exact .absent hOpened hAbsent
    · have reached : Reached p adapter snapshot orderId readings store.commerce after start paymentId
          view := ⟨hOpened, hPresent, hReference, hBound⟩
      obtain ⟨examination, hExamined, hRest⟩ := reconcileBound_returns.mp hRest
      cases examination with
      | failed createdAt =>
          obtain ⟨later, rfl, hEmitted⟩ := hRest
          exact .failed reached hExamined hEmitted
      | unpaid =>
          obtain ⟨rfl, rfl⟩ := hRest
          exact .pending reached hExamined
      | settled settlement => exact .settled reached hExamined hRest
  · rintro ⟨hPattern, hAware, course⟩
    refine ⟨(), store, ⟨hPattern, rfl⟩, _, store, ⟨⟨(), hAware, rfl⟩, rfl⟩, ?_⟩
    have hBound : ∀ {start : Opened} {paymentId : String} {view : OrderView} {after : Commerce},
        Reached p adapter snapshot orderId readings store.commerce after start paymentId view →
        (reconcileBound p adapter snapshot orderId sourceEventId
          (observedAt.getD ⟨readings.now, true⟩).instant readings start paymentId view).Returns
            { store with commerce := after } result next →
        ∃ start middle, (openSession p adapter snapshot store.commerce orderId = .ok start ∧
            store = middle) ∧
          (reconcileOpened p adapter snapshot orderId sourceEventId
            (observedAt.getD ⟨readings.now, true⟩).instant readings start).Returns middle result next := by
      intro start paymentId view after reached hRest
      exact ⟨start, store, ⟨reached.opened, rfl⟩, reconcileOpened_returns.mpr (Or.inr
        ⟨reached.present, paymentId, view, after, reached.reference, reached.bound, hRest⟩)⟩
    cases course with
    | absent hOpened hAbsent =>
        exact ⟨_, store, ⟨hOpened, rfl⟩, reconcileOpened_returns.mpr (Or.inl ⟨hAbsent, rfl, rfl⟩)⟩
    | pending reached hExamined =>
        exact hBound reached (reconcileBound_returns.mpr ⟨_, hExamined, rfl, rfl⟩)
    | failed reached hExamined hEmitted =>
        exact hBound reached (reconcileBound_returns.mpr ⟨_, hExamined, _, rfl, hEmitted⟩)
    | settled reached hExamined hSettled =>
        exact hBound reached (reconcileBound_returns.mpr ⟨_, hExamined, hSettled⟩)

end

/-- The terms of an order whose payment is bound. -/
def termsOf (db : Commerce) (orderId paymentId : String) (view : OrderView) : Terms where
  environment := db.environment
  orderId := orderId
  paymentId := paymentId
  amount := view.quotedAmountMinor

/-- A session that was opened once is opened alike in every later state. -/
theorem openSession_again {later : Commerce} (wellFormed : Commerce.WellFormed p db)
    (continues : db.Continues later) {orderId : String} {start : Opened}
    (hOpened : openSession p adapter snapshot db orderId = .ok start) :
    ∃ again, openSession p adapter snapshot later orderId = .ok again ∧
      again.checkoutId = start.checkoutId ∧ again.session = start.session ∧
      SameTerms again.order start.order := by
  obtain ⟨quote, hOrder, hProvider, hCheckout, hQuote, hSession, hValid⟩ := openSession_eq_ok.mp hOpened
  rw [Commerce.getOrder_eq_orderView] at hOrder
  obtain ⟨order, hStored, shows⟩ := Commerce.orderView_shows hOrder
  obtain ⟨now, hNow, -, keeps⟩ := continues.order wellFormed hStored
  obtain ⟨view, hView, showsNow⟩ := Commerce.orderView_returns hNow
  have same : SameTerms view start.order := .of_keeps showsNow shows keeps
  have hStill : view.providerCheckoutId = some start.checkoutId := by
    rw [shows.providerCheckoutId] at hCheckout
    rw [showsNow.providerCheckoutId, keeps.checkout (by rw [hCheckout]; rfl), hCheckout]
  refine ⟨⟨view, start.checkoutId, start.session⟩, openSession_eq_ok.mpr ⟨quote, ?_, ?_, hStill, ?_,
    hSession, ?_⟩, rfl, rfl, same⟩
  · rw [Commerce.getOrder_eq_orderView, hView]
  · rw [same.provider, hProvider]
  · rw [same.quoteId]
    exact continues.getQuote hQuote
  · rw [validateCheckout_congr same, continues.environment]
    exact hValid

namespace Reached

variable {orderId paymentId : String} {readings : Readings} {before after : Commerce} {start : Opened}
  {view : OrderView}

theorem continues (reached : Reached p adapter snapshot orderId readings before after start paymentId
    view) (wellFormed : Commerce.WellFormed p before) :
    Commerce.WellFormed p after ∧ before.Continues after :=
  (Commerce.bindProviderPayment_moves reached.bound).wellFormed_continues wellFormed

/-- The payment is bound under the terms that the view shows. -/
theorem terms (reached : Reached p adapter snapshot orderId readings before after start paymentId
    view) (wellFormed : Commerce.WellFormed p before) :
    (termsOf after orderId paymentId view).Bound p after ∧
      (termsOf after orderId paymentId view).Shown after view := by
  obtain ⟨-, order, hOrder, shows, -, -, hPayment⟩ := Commerce.bindProviderPayment_bound reached.bound
  obtain ⟨hStored, hId⟩ := Commerce.order?_eq_some.mp hOrder
  have hBound := Commerce.orderByPayment?_eq_some.mpr ⟨hStored, hPayment⟩
  exact ⟨⟨(reached.continues wellFormed).1, rfl, order, hBound, hId, shows.quotedAmountMinor.symm⟩,
    order, hBound, shows⟩

/-- The snapshot names the payment. -/
theorem paymentId? (reached : Reached p adapter snapshot orderId readings before after start paymentId
    view) : snapshot.paymentId? start.checkoutId = some paymentId := by
  obtain ⟨_, -, -, -, -, hSession, -⟩ := openSession_eq_ok.mp reached.opened
  have hFound := (retrieve_eq_ok.mp hSession).1
  simp [Snapshot.paymentId?, hFound, reached.reference, Except.toOption]

/-- A payment that was reached once is reached again without a change. -/
theorem again (reached : Reached p adapter snapshot orderId readings before after start paymentId view)
    (wellFormed : Commerce.WellFormed p before) {later : Commerce} (continues : after.Continues later)
    (readings' : Readings) :
    ∃ start' view', Reached p adapter snapshot orderId readings' later later start' paymentId view' ∧
      start'.checkoutId = start.checkoutId ∧ start'.session = start.session ∧
      start'.order.orderId = start.order.orderId ∧ SameTerms view' view ∧
      (termsOf after orderId paymentId view).Shown later view' := by
  obtain ⟨hAfter, hContinues⟩ := reached.continues wellFormed
  obtain ⟨start', hOpened, hCheckout, hSession, same⟩ :=
    openSession_again wellFormed (hContinues.trans continues) reached.opened
  obtain ⟨hPattern, order, hOrder, shows, hProvider, hAttached, hPayment⟩ :=
    Commerce.bindProviderPayment_bound reached.bound
  obtain ⟨now, hNow, -, keeps⟩ := continues.order hAfter hOrder
  have hPaymentNow : now.providerPaymentId = some paymentId := by
    rw [keeps.payment (by rw [hPayment]; rfl), hPayment]
  have hAttachedNow : now.providerCheckoutId = some start'.checkoutId := by
    rw [keeps.checkout (by rw [hAttached]; rfl), hAttached, hCheckout]
  obtain ⟨view', hBound, showsNow⟩ := Commerce.bindProviderPayment_replay hPattern
    (Commerce.parseTimestamp_timestamp p readings'.bound) hNow (keeps.provider.trans hProvider)
    hAttachedNow hPaymentNow
  refine ⟨start', view', ⟨hOpened, by rw [hSession]; exact reached.present,
    by rw [hSession]; exact reached.reference, hBound⟩, hCheckout, hSession, same.orderId,
    .of_keeps showsNow shows keeps, now,
    Commerce.orderByPayment?_eq_some.mpr ⟨(Commerce.order?_eq_some.mp hNow).1, hPaymentNow⟩, showsNow⟩

/-- What a reconciliation reaches is determined by the store. -/
theorem unique (reached : Reached p adapter snapshot orderId readings before after start paymentId
    view) {after' : Commerce} {start' : Opened} {paymentId' : String} {view' : OrderView}
    (other : Reached p adapter snapshot orderId readings before after' start' paymentId' view') :
    start' = start ∧ paymentId' = paymentId ∧ after' = after ∧ view' = view := by
  obtain rfl : start' = start := Except.ok.inj (other.opened.symm.trans reached.opened)
  obtain rfl : paymentId' = paymentId := Except.ok.inj (other.reference.symm.trans reached.reference)
  have hSame := Except.ok.inj (other.bound.symm.trans reached.bound)
  exact ⟨rfl, rfl, congrArg Prod.fst hSame, congrArg Prod.snd hSame⟩

end Reached

end

end Stripe

end VouchSpec
