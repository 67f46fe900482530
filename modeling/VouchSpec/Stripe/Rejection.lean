import VouchSpec.Stripe.Idempotence

/-! A payment intent that is not bound to its order. The payment is written to
the order before the intent is retrieved, so a rejection leaves the store as it
was only where the payment had been written before. -/

namespace VouchSpec

namespace Stripe

/-- The checks between the retrieval of a payment intent and its status. -/
structure Binds (adapter : Adapter) (environment : Environment) (orderId : String)
    (order : OrderView) (paymentId : String) (payment : Json) : Prop where
  object : member payment "object" = .str "payment_intent"
  identifier : member payment "id" = .str paymentId
  livemode : member payment "livemode" = .bool (livemode environment)
  currency : member payment "currency" = .str order.currency
  amount : boundedInt (member payment "amount") "PaymentIntent amount" amountMaximum =
    .ok (order.quotedAmountMinor : Int)
  metadata : ∃ members, metadata (member payment "metadata") = .ok members ∧
    members.get? "vouchspec_order_id" = some (.str orderId) ∧
    members.get? "vouchspec_quote_id" = some (.str order.quoteId) ∧
    members.get? "vouchspec_account_id" = some (.str adapter.accountId)

section
variable {p : Platform} {adapter : Adapter} {snapshot : Snapshot} {orderId : String}

/-- Only a bound payment intent passes its examination. -/
theorem binds_of_examined {environment : Environment} {order : OrderView} {paymentId : String}
    {payment : Json} {examination : Examination}
    (hPayment : retrieve snapshot.payment paymentId = .ok payment)
    (hExamined : examinePayment p adapter snapshot environment orderId order paymentId =
      .ok examination) :
    Binds adapter environment orderId order paymentId payment := by
  unfold examinePayment at hExamined
  simp only [hPayment, Except.bind_eq_ok_iff, require_eq_ok] at hExamined
  obtain ⟨_, hSame, members, hMembers, _, ⟨hObject, hId, hMode, hCurrency⟩, amount, hAmount, _,
    ⟨hQuoted, hOrder, hQuote, hAccount⟩, -⟩ := hExamined
  cases hSame
  subst hQuoted
  exact ⟨hObject, hId, hMode, hCurrency, hAmount, members, hMembers, hOrder, hQuote, hAccount⟩

/-- The call gets to the payment intent of its order and finds it not bound to
the order. -/
def Rejects (p : Platform) (adapter : Adapter) (snapshot : Snapshot) (orderId : String)
    (observedAt : Option DateTime) (readings : Readings) (store : Store) : Prop :=
  Pattern.orderId orderId = true ∧ (observedAt.getD ⟨readings.now, true⟩).aware = true ∧
    ∃ after start paymentId view payment,
      Reached p adapter snapshot orderId readings store.commerce after start paymentId view ∧
      retrieve snapshot.payment paymentId = .ok payment ∧
      ¬Binds adapter after.environment orderId view paymentId payment

theorem Reached.raises {readings : Readings} {store : Store} {after : Commerce} {start : Opened}
    {paymentId : String} {view : OrderView} {payment : Json} {observedAt : Option DateTime}
    (sourceEventId : Option String) (hPattern : Pattern.orderId orderId = true)
    (hAware : (observedAt.getD ⟨readings.now, true⟩).aware = true)
    (reached : Reached p adapter snapshot orderId readings store.commerce after start paymentId view)
    (hPayment : retrieve snapshot.payment paymentId = .ok payment)
    (hUnbound : ¬Binds adapter after.environment orderId view paymentId payment) :
    ∃ error, (reconcileOrder p adapter snapshot orderId sourceEventId observedAt readings).Raises store
      error { store with commerce := after } := by
  cases hExamined : examinePayment p adapter snapshot after.environment orderId view paymentId with
  | ok examination => exact absurd (binds_of_examined hPayment hExamined) hUnbound
  | error error =>
      refine ⟨error, ?_⟩
      have hReading : (Routine.reading fun store : Store => examinePayment p adapter snapshot
          store.commerce.environment orderId view paymentId).Raises
            { store with commerce := after } error { store with commerce := after } :=
        Routine.raises_reading hExamined
      have hTime : awareDatetime (observedAt.getD ⟨readings.now, true⟩) "Stripe reconciliation timestamp" =
          .ok (observedAt.getD ⟨readings.now, true⟩).instant := by
        simp [awareDatetime, require_of, hAware, bind, Except.bind, pure, Except.pure]
      unfold reconcileOrder
      refine Routine.Returns.raises (Routine.returns_reading.mpr ⟨require_of hPattern, rfl⟩) ?_
      refine Routine.Returns.raises (Routine.returns_reading.mpr ⟨hTime, rfl⟩) ?_
      refine Routine.Returns.raises (Routine.returns_reading.mpr ⟨reached.opened, rfl⟩) ?_
      unfold reconcileOpened
      rw [if_neg reached.present]
      refine Routine.Returns.raises (Routine.returns_reading.mpr ⟨reached.reference, rfl⟩) ?_
      exact Routine.Returns.raises (ledger_returns.mpr ⟨reached.bound, rfl⟩) (hReading.bind _)

/-- A returning binding writes nothing exactly where the payment is already bound. -/
theorem bound_unchanged {before after : Commerce} {paymentId checkoutId occurredAt : String}
    {view : OrderView}
    (hReturns : before.bindProviderPayment p orderId paymentId checkoutId occurredAt =
      .ok (after, view)) :
    after = before ↔ ∃ order, before.order? orderId = some order ∧ order.providerPaymentId ≠ none := by
  obtain ⟨-, order, hOrder, -, -, -, hPayment⟩ := Commerce.bindProviderPayment_bound hReturns
  constructor
  · rintro rfl
    exact ⟨order, hOrder, by simp [hPayment]⟩
  · rintro ⟨stored, hStored, hBound⟩
    unfold Commerce.bindProviderPayment at hReturns
    simp only [Except.bind_eq_ok_iff, Commerce.requireOrder_eq_ok, require_eq_ok] at hReturns
    obtain ⟨_, -, _, -, found, hFound, _, -, hRest⟩ := hReturns
    obtain rfl : stored = found := Option.some.inj (hStored.symm.trans hFound)
    split at hRest
    · simp only [Except.bind_eq_ok_iff, Except.pure_eq_ok_iff, Prod.mk.injEq] at hRest
      obtain ⟨_, -, _, -, hSame, -⟩ := hRest
      exact hSame.symm
    · next hNone => exact absurd hNone hBound

end

/-- A reconciliation that finds the payment intent not bound to the order raises,
and leaves the store as it was exactly if the order's payment was bound before. -/
theorem rejection_untouched (p : Platform) (adapter : Adapter) (snapshot : Snapshot)
    (orderId : String) (sourceEventId : Option String) (observedAt : Option DateTime)
    (readings : Readings) (store : Store)
    (hRejects : Rejects p adapter snapshot orderId observedAt readings store) :
    (∃ error after, (reconcileOrder p adapter snapshot orderId sourceEventId observedAt
        readings).Raises store error after ∧ after = store) ↔
      ∃ order, store.commerce.order? orderId = some order ∧ order.providerPaymentId ≠ none := by
  obtain ⟨hPattern, hAware, after, start, paymentId, view, payment, reached, hPayment, hUnbound⟩ :=
    hRejects
  obtain ⟨error, hRaises⟩ := reached.raises sourceEventId hPattern hAware hPayment
    hUnbound
  rw [← bound_unchanged reached.bound]
  constructor
  · rintro ⟨other, next, hOther, rfl⟩
    have hSame := hRaises.symm.trans hOther
    exact congrArg Store.commerce (congrArg Prod.snd hSame)
  · rintro rfl
    exact ⟨error, store, hRaises, rfl⟩

namespace Sample

/-- A payment intent of another integration, without the order's metadata. -/
def foreignPayment : Json :=
  .obj [("id", .str "pi_00000001"), ("object", .str "payment_intent"), ("livemode", .bool false),
    ("currency", .str "usd"), ("amount", .int 4900), ("metadata", .obj []), ("status", .str "succeeded")]

def foreignSnapshot : Snapshot :=
  { snapshot "succeeded" 0 false with payment := fun _ => some foreignPayment }

/-- The sample order, before and after the first call has bound the payment. -/
def rebound (store : Store) : Store :=
  ((visit 3).reconcile .standard adapter foreignSnapshot VouchSpec.Sample.orderId store).2

theorem foreignPayment_unbound (environment : Environment) (order : OrderView) :
    ¬Binds adapter environment VouchSpec.Sample.orderId order "pi_00000001" foreignPayment := by
  rintro ⟨-, -, -, -, -, members, hMembers, hOrder, -, -⟩
  have hEmpty : Stripe.metadata (member foreignPayment "metadata") = .ok (.obj []) := rfl
  rw [hEmpty] at hMembers
  cases hMembers
  cases hOrder

/-- The call reaches the payment intent when the checks before it pass. -/
theorem rejects {store : Store}
    (hChecks : (match openSession .standard adapter foreignSnapshot store.commerce
        VouchSpec.Sample.orderId with
      | .ok start => decide (member start.session "payment_intent" = .str "pi_00000001") &&
          (store.commerce.bindProviderPayment .standard VouchSpec.Sample.orderId "pi_00000001"
            start.checkoutId (Platform.standard.timestamp (visit 3).readings.bound)).toBool
      | .error _ => false) = true) :
    Rejects .standard adapter foreignSnapshot VouchSpec.Sample.orderId none (visit 3).readings store := by
  split at hChecks
  · next start hOpened =>
      simp only [Bool.and_eq_true, decide_eq_true_eq] at hChecks
      obtain ⟨hReference, hBound⟩ := hChecks
      cases hResult : store.commerce.bindProviderPayment .standard VouchSpec.Sample.orderId "pi_00000001"
          start.checkoutId (Platform.standard.timestamp (visit 3).readings.bound) with
      | error error =>
          rw [hResult] at hBound
          cases hBound
      | ok result =>
          refine ⟨by decide, rfl, result.1, start, "pi_00000001", result.2, foreignPayment,
            ⟨hOpened, ?_, ?_, hResult⟩, rfl, foreignPayment_unbound _ _⟩
          · rw [hReference]
            simp
          · rw [hReference]
            rfl
  · cases hChecks

end Sample

/-- The first call on an order binds a payment that it then rejects. -/
theorem rejection_binds_payment :
    Commerce.Reachable .standard Sample.attached.commerce ∧
      Rejects .standard Sample.adapter Sample.foreignSnapshot VouchSpec.Sample.orderId none
        (Sample.visit 3).readings Sample.attached ∧
      ((Sample.visit 3).reconcile .standard Sample.adapter Sample.foreignSnapshot
        VouchSpec.Sample.orderId Sample.attached).1 =
          .error (rejected "Stripe PaymentIntent is not bound to the order" "invalid_stripe_object") ∧
      ((Sample.visit 3).reconcile .standard Sample.adapter Sample.foreignSnapshot
        VouchSpec.Sample.orderId Sample.attached).2 ≠ Sample.attached := by
  refine ⟨Sample.attached_reachable, Sample.rejects (by decide +kernel), ?_⟩
  decide +kernel

namespace Sample

theorem rebound_bound : (match (rebound attached).commerce.order? VouchSpec.Sample.orderId with
    | some order => decide (order.providerPaymentId ≠ none)
    | none => false) = true := by decide +kernel

end Sample

/-- A second call with the same intent raises again and changes nothing. -/
theorem rejection_untouched_again :
    ∃ error after, (reconcileOrder .standard Sample.adapter Sample.foreignSnapshot
      VouchSpec.Sample.orderId none none (Sample.visit 3).readings).Raises
        (Sample.rebound Sample.attached) error after ∧ after = Sample.rebound Sample.attached := by
  apply (rejection_untouched .standard Sample.adapter Sample.foreignSnapshot VouchSpec.Sample.orderId none
    none (Sample.visit 3).readings (Sample.rebound Sample.attached)
    (Sample.rejects (by decide +kernel))).mpr
  have hBound := Sample.rebound_bound
  split at hBound
  · next order hOrder => exact ⟨order, hOrder, of_decide_eq_true hBound⟩
  · cases hBound

end Stripe

end VouchSpec
