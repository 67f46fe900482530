import VouchSpec.Commerce.Ingestion
import VouchSpec.Stripe.Idempotence

/-! What reconciliations of one order keep of the ledger, whether they return
or raise: its events are the ones emitted, posted as far as they go. -/

namespace VouchSpec

namespace Stripe

/-- The ledger in a run that reconciles one order and has emitted some events. -/
structure Tracked (p : Platform) (start : Commerce) (orderId : String) (emitted : List ProviderEvent)
    (db : Commerce) : Prop where
  wellFormed : Commerce.WellFormed p db
  continues : start.Continues db
  known : ∀ row ∈ db.events.rows, row.payload ∈ start.events.rows.map EventRow.payload ++ emitted
  unbound : ∀ order, db.order? orderId = some order → order.providerPaymentId = none →
    order.paymentStatus = .pending
  bound : ∀ order paymentId, db.order? orderId = some order →
    order.providerPaymentId = some paymentId →
    start.eventsOf paymentId = [] ∧ order.Posted (db.eventsOf paymentId) ∧
      ∀ row ∈ db.pendingEvents paymentId, db.applyEvent paymentId row.payload = .ok (db, false)

section
variable {p : Platform} {start db after : Commerce} {orderId : String} {emitted : List ProviderEvent}

/-- An order that waits for its payment without any event. -/
theorem Tracked.opening (wellFormed : Commerce.WellFormed p start) {order : OrderRow}
    (hOrder : start.order? orderId = some order) (hStatus : order.paymentStatus = .pending)
    (hNone : ∀ paymentId ∈ order.providerPaymentId, start.eventsOf paymentId = []) :
    Tracked p start orderId [] start where
  wellFormed := wellFormed
  continues := .refl start
  known row hRow := by
    rw [List.append_nil]
    exact List.mem_map_of_mem hRow
  unbound other hOther _ := by
    obtain rfl : order = other := Option.some.inj (hOrder.symm.trans hOther)
    exact hStatus
  bound other paymentId hOther hPayment := by
    obtain rfl : order = other := Option.some.inj (hOrder.symm.trans hOther)
    have hEvents := hNone paymentId hPayment
    refine ⟨hEvents, ?_, ?_⟩
    · rw [hEvents]
      exact OrderRow.posted_nil hStatus
    · intro row hRow
      obtain ⟨hStored, hOwn, -⟩ := Commerce.mem_pendingEvents.mp hRow
      have hMember : row ∈ start.eventsOf paymentId := List.mem_filter.mpr ⟨hStored, by simp [hOwn]⟩
      rw [hEvents] at hMember
      cases hMember

theorem Tracked.emitting (tracked : Tracked p start orderId emitted db) (more : List ProviderEvent) :
    Tracked p start orderId (emitted ++ more) db :=
  { tracked with
    known := by
      intro row hRow
      rw [← List.append_assoc]
      exact List.mem_append_left _ (tracked.known row hRow) }

/-- No event is stored for a payment that no order is bound to. -/
theorem eventsOf_unbound (wellFormed : Commerce.WellFormed p db) {paymentId : String}
    (hUnbound : ∀ order ∈ db.orders.rows, order.providerPaymentId ≠ some paymentId) :
    db.eventsOf paymentId = [] := by
  apply List.filter_eq_nil_iff.mpr
  intro row hRow hOwn
  obtain ⟨order, hOrder, hPayment, -⟩ := wellFormed.event_orders row hRow
  rw [of_decide_eq_true hOwn] at hPayment
  exact hUnbound order hOrder hPayment

/-- The events of an earlier state are stored in every later one. -/
theorem eventsOf_earlier (continues : start.Continues db) {paymentId : String}
    (hNone : db.eventsOf paymentId = []) : start.eventsOf paymentId = [] := by
  apply List.filter_eq_nil_iff.mpr
  intro row hRow hOwn
  obtain ⟨later, hLater, hPayload, -⟩ := continues.events (Commerce.event?_eq_some.mpr ⟨hRow, rfl⟩)
  have hMember : later ∈ db.eventsOf paymentId := by
    refine List.mem_filter.mpr ⟨(Commerce.event?_eq_some.mp hLater).1, ?_⟩
    change decide (later.payload.paymentId = paymentId) = true
    rw [hPayload]
    exact hOwn
  rw [hNone] at hMember
  cases hMember

/-- Binding the payment keeps the ledger tracked. -/
theorem Tracked.bind (tracked : Tracked p start orderId emitted db)
    {paymentId checkoutId occurredAt : String} {view : OrderView}
    (hReturns : db.bindProviderPayment p orderId paymentId checkoutId occurredAt = .ok (after, view)) :
    Tracked p start orderId emitted after := by
  obtain ⟨hAfter, continues⟩ :=
    (Commerce.bindProviderPayment_moves hReturns).wellFormed_continues tracked.wellFormed
  unfold Commerce.bindProviderPayment at hReturns
  simp only [Except.bind_eq_ok_iff, Commerce.requireOrder_eq_ok, require_eq_ok] at hReturns
  obtain ⟨_, -, _, -, order, hOrder, _, -, hRest⟩ := hReturns
  split at hRest
  · simp only [Except.bind_eq_ok_iff, Except.pure_eq_ok_iff, Prod.mk.injEq] at hRest
    obtain ⟨_, -, _, -, rfl, -⟩ := hRest
    exact tracked
  · next hFree =>
      simp only [Except.bind_eq_ok_iff, Except.pure_eq_ok_iff, Prod.mk.injEq,
        Commerce.updateOrder_eq_ok] at hRest
      obtain ⟨_, ⟨orders, hRows, rfl⟩, _, -, rfl, -⟩ := hRest
      obtain ⟨hStored, rfl⟩ := Commerce.order?_eq_some.mp hOrder
      have hChanged : ∀ other, ({ db with orders } : Commerce).order? order.orderId = some other →
          other = { order with providerPaymentId := some paymentId, updatedAt := occurredAt } := by
        intro other hOther
        obtain ⟨hMember, hId⟩ := Commerce.order?_eq_some.mp hOther
        change other ∈ orders.rows at hMember
        rw [hRows, Table.mem_changed] at hMember
        rcases hMember with ⟨old, hOld, hOldId, rfl⟩ | ⟨-, hDifferent⟩
        · obtain rfl := Commerce.order_eq_of_orderId hOld hStored (of_decide_eq_true hOldId)
          rfl
        · exact absurd (decide_eq_true hId) hDifferent
      -- The payment was not bound to any order, or the table would refuse it.
      have hUnbound : ∀ other ∈ db.orders.rows, other.providerPaymentId ≠ some paymentId := by
        intro other hOther hSame
        have hDifferent : other.orderId ≠ order.orderId := by
          intro hId
          obtain rfl := Commerce.order_eq_of_orderId hOther hStored hId
          rw [hFree] at hSame
          cases hSame
        have hOtherStays : other ∈ orders.rows := by
          rw [hRows, Table.mem_changed]
          exact Or.inr ⟨hOther, by simpa using hDifferent⟩
        have hHere : { order with providerPaymentId := some paymentId, updatedAt := occurredAt } ∈
            orders.rows := by
          rw [hRows, Table.mem_changed]
          exact Or.inl ⟨order, hStored, by simp, rfl⟩
        have hClash : sameValue other.providerPaymentId (some paymentId) := ⟨by rw [hSame]; rfl, hSame⟩
        have hEqual := Table.eq_of_clash hOtherStays hHere
          (Or.inr (Or.inr (Or.inr (Or.inr (Or.inl hClash)))))
          (Or.inr (Or.inr (Or.inr (Or.inr (Or.inl ⟨rfl, hSame.symm⟩)))))
        exact hDifferent (by rw [hEqual])
      have hNone := eventsOf_unbound tracked.wellFormed hUnbound
      refine ⟨hAfter, tracked.continues.trans continues, tracked.known, ?_, ?_⟩
      · intro other hOther hPayment
        rw [hChanged other hOther] at hPayment
        cases hPayment
      · intro other payment hOther hPayment
        rw [hChanged other hOther] at hPayment ⊢
        obtain rfl := Option.some.inj hPayment
        have hStill : ({ db with orders } : Commerce).eventsOf paymentId = [] := hNone
        refine ⟨eventsOf_earlier tracked.continues hNone, ?_, ?_⟩
        · rw [hStill]
          exact OrderRow.posted_nil (tracked.unbound order hOrder hFree)
        · intro row hRow
          obtain ⟨hMember, hOwn, -⟩ := Commerce.mem_pendingEvents.mp hRow
          have hListed : row ∈ ({ db with orders } : Commerce).eventsOf paymentId :=
            List.mem_filter.mpr ⟨hMember, by simp [hOwn]⟩
          rw [hStill] at hListed
          cases hListed

/-- Ingesting an emitted event of the order's payment keeps the ledger tracked. -/
theorem Tracked.ingest (tracked : Tracked p start orderId emitted db) {event : ProviderEvent}
    (hEvent : event ∈ emitted) {order : OrderRow}
    (hOrder : db.orderByPayment? event.paymentId = some order) (hId : order.orderId = orderId)
    {received : String} {result : Commerce.Ingested}
    (hReturns : db.ingestEvent p event received = .ok (after, result)) :
    Tracked p start orderId emitted after := by
  obtain ⟨hStored, hBound⟩ := Commerce.orderByPayment?_eq_some.mp hOrder
  have hFound : db.order? orderId = some order := Commerce.order?_eq_some.mpr ⟨hStored, hId⟩
  obtain ⟨hNone, hPosted, -⟩ := tracked.bound order event.paymentId hFound hBound
  obtain ⟨hAfter, continues⟩ :=
    (Commerce.ingestEvent_moves hReturns).wellFormed_continues tracked.wellFormed
  rcases Commerce.ingestEvent_eq_ok.mp hReturns with
    ⟨_, _, -, -, -, rfl, -⟩ | ⟨other, _, _, hFresh, hOther, hProvider, -⟩
  · exact tracked
  obtain rfl : order = other := Option.some.inj (hOrder.symm.trans hOther)
  obtain ⟨after', result', later, hReturns', ingested, -⟩ :=
    tracked.wellFormed.ingestEvent_new received hFresh hOrder hProvider hPosted (fun _ => True) trivial
      (fun _ _ _ _ _ _ => trivial)
  obtain rfl : after = after' := congrArg Prod.fst (Except.ok.inj (hReturns.symm.trans hReturns'))
  obtain ⟨last, hLast, hLastById, -⟩ := continues.bound tracked.wellFormed hOrder
  obtain rfl : last = later := Option.some.inj (hLast.symm.trans ingested.bound)
  have hLastBound := (Commerce.orderByPayment?_eq_some.mp hLast).2
  rw [hId] at hLastById
  refine ⟨hAfter, tracked.continues.trans continues, ?_, ?_, ?_⟩
  · intro row hRow
    have hPayload : row.payload ∈ after.events.rows.map EventRow.payload := List.mem_map_of_mem hRow
    rw [ingested.payloads, List.mem_append, List.mem_singleton] at hPayload
    rcases hPayload with hOld | hNew
    · obtain ⟨old, hOld, hSame⟩ := List.mem_map.mp hOld
      rw [← hSame]
      exact tracked.known old hOld
    · rw [hNew]
      exact List.mem_append_right _ hEvent
  · intro current hCurrent hFree
    obtain rfl : last = current := Option.some.inj (hLastById.symm.trans hCurrent)
    rw [hLastBound] at hFree
    cases hFree
  · intro current paymentId hCurrent hPayment
    obtain rfl : last = current := Option.some.inj (hLastById.symm.trans hCurrent)
    obtain rfl : event.paymentId = paymentId := Option.some.inj (hLastBound.symm.trans hPayment)
    exact ⟨hNone, ingested.posted, ingested.stuck⟩

end

/-- The emissions that follow from an examination. -/
def Settlement.reported (p : Platform) (settlement : Settlement) (amount currentTime : Int)
    (readings : Readings) : List Emission :=
  settlement.captured :: match settlement.availableTime p currentTime with
    | .ok availableAt => settlement.following p amount availableAt readings
    | .error _ => []

def Examination.reported (p : Platform) (paymentId : String) (amount currentTime : Int)
    (readings : Readings) : Examination → List Emission
  | .failed createdAt => [failure paymentId createdAt]
  | .unpaid => []
  | .settled settlement => settlement.reported p amount currentTime readings

/-- A snapshot with the call that reads it. -/
structure Attempt where
  snapshot : Snapshot
  visit : Visit

namespace Attempt

/-- The events that a call may hand to the ledger. -/
def events (attempt : Attempt) (p : Platform) (adapter : Adapter) (db : Commerce) (orderId : String) :
    List ProviderEvent :=
  ((do
    let view ← (db.orderView orderId).toOption
    let checkoutId ← view.providerCheckoutId
    let paymentId ← attempt.snapshot.paymentId? checkoutId
    let examination ← (examinePayment p adapter attempt.snapshot db.environment orderId view
      paymentId).toOption
    return (examination.reported p paymentId view.quotedAmountMinor attempt.visit.time.instant
      attempt.visit.readings).map (Emission.event p (termsOf db orderId paymentId view))) :
        Option _).getD []

/-- The store after a call, whether it returns or raises. -/
def after (attempt : Attempt) (p : Platform) (adapter : Adapter) (orderId : String) (store : Store) :
    Store :=
  (attempt.visit.reconcile p adapter attempt.snapshot orderId store).2

end Attempt

section
variable {p : Platform} {adapter : Adapter} {start : Commerce} {orderId checkoutId : String}
  {emitted : List ProviderEvent}

/-- The order of a run as a later reconciliation reaches it. -/
theorem Reached.of_start {snapshot : Snapshot} {before after : Commerce} {opened : Opened}
    {paymentId : String} {view : OrderView} {readings : Readings}
    (wellFormed : Commerce.WellFormed p start) (continues : start.Continues before) {order : OrderRow}
    (hOrder : start.order? orderId = some order) (hCheckout : order.providerCheckoutId = some checkoutId)
    (hBefore : Commerce.WellFormed p before)
    (reached : Reached p adapter snapshot orderId readings before after opened paymentId view) :
    opened.checkoutId = checkoutId ∧ after.environment = start.environment ∧
      ∃ now, after.order? orderId = some now ∧ view.Shows now ∧ order.Keeps now := by
  have hContinues := continues.trans (reached.continues hBefore).2
  obtain ⟨-, now, hNow, shows, -, hAttached, -⟩ := Commerce.bindProviderPayment_bound reached.bound
  obtain ⟨later, hLater, -, keeps⟩ := hContinues.order wellFormed hOrder
  obtain rfl : now = later := Option.some.inj (hNow.symm.trans hLater)
  refine ⟨?_, hContinues.environment, now, hNow, shows, keeps⟩
  rw [keeps.checkout (by rw [hCheckout]; rfl), hCheckout] at hAttached
  exact (Option.some.inj hAttached).symm

/-- What is emitted follows from the start of the run. -/
theorem Attempt.events_of_reached {attempt : Attempt} {before after : Commerce} {opened : Opened}
    {paymentId : String} {view : OrderView} {readings : Readings}
    (wellFormed : Commerce.WellFormed p start) (continues : start.Continues before) {order : OrderRow}
    (hOrder : start.order? orderId = some order) (hCheckout : order.providerCheckoutId = some checkoutId)
    (hBefore : Commerce.WellFormed p before)
    (reached : Reached p adapter attempt.snapshot orderId readings before after opened paymentId view)
    {examination : Examination}
    (hExamined : examinePayment p adapter attempt.snapshot after.environment orderId view paymentId =
      .ok examination) :
    attempt.events p adapter start orderId =
      (examination.reported p paymentId view.quotedAmountMinor attempt.visit.time.instant
        attempt.visit.readings).map (Emission.event p (termsOf after orderId paymentId view)) := by
  obtain ⟨hSession, hEnvironment, now, hNow, shows, keeps⟩ :=
    reached.of_start wellFormed continues hOrder hCheckout hBefore
  obtain ⟨first, hFirst, showsFirst⟩ := Commerce.orderView_returns hOrder
  have same : SameTerms view first := .of_keeps shows showsFirst keeps
  have hPayment := reached.paymentId?
  rw [hSession] at hPayment
  rw [examinePayment_congr same, hEnvironment] at hExamined
  have hFirstCheckout : first.providerCheckoutId = some checkoutId :=
    showsFirst.providerCheckoutId.trans hCheckout
  simp only [Attempt.events, hFirst, Except.toOption, hFirstCheckout, hPayment, hExamined,
    Option.bind_eq_bind, Option.bind_some, Option.pure_def, Option.getD_some, termsOf, hEnvironment,
    same.quotedAmountMinor]

/-- A tracked ledger in which the payment of the order is bound. -/
structure Emitting (p : Platform) (start : Commerce) (emitted : List ProviderEvent) (terms : Terms)
    (view : OrderView) (store : Store) : Prop where
  tracked : Tracked p start terms.orderId emitted store.commerce
  bound : terms.Bound p store.commerce
  shown : terms.Shown store.commerce view

/-- An emission that raises leaves the store as it was. -/
theorem emit_raises (p : Platform) (readings : Readings) (view : OrderView) (emission : Emission) (store : Store) :
    Routine.Triple (fun state => state = store) (emit p readings view emission)
      (fun _ _ => True) (fun state => state = store) := by
  unfold emit
  refine Routine.triple_bind (fun _ state => state = store) ?_ fun _ => ?_
  · exact Routine.triple_reading (fun _ _ h _ => h) fun _ h => h
  · refine Routine.triple_bind (fun _ _ => True) ?_ fun _ => ?_
    · exact Routine.triple_transaction (fun _ _ _ _ _ => trivial) fun _ h => h
    · exact Routine.triple_pure fun _ _ => trivial

theorem triple_emit {terms : Terms} (readings : Readings) (view : OrderView) {emission : Emission}
    (hFee : 0 ≤ emission.fee) (hEvent : emission.event p terms ∈ emitted) :
    Routine.Triple (Emitting p start emitted terms view) (emit p readings view emission)
      (fun later => Emitting p start emitted terms later)
      (fun state => Tracked p start terms.orderId emitted state.commerce) := by
  intro store emitting
  have hRaises := emit_raises p readings view emission store store rfl
  cases hRun : emit p readings view emission store with
  | mk outcome next =>
      rw [hRun] at hRaises
      cases outcome with
      | error raised =>
          rw [show next = store from hRaises]
          exact emitting.tracked
      | ok later =>
          have viewed := emitting.bound.viewed_of_shown emitting.shown
          obtain ⟨-, result, -, hIngested, -⟩ := (emit_returns emitting.bound viewed hFee).mp hRun
          obtain ⟨progress, -⟩ := emit_taken emitting.bound viewed hFee hRun
          obtain ⟨order, hOrder, hId, -⟩ := emitting.bound.order
          exact ⟨emitting.tracked.ingest hEvent hOrder hId hIngested, progress.bound, progress.shown⟩

theorem triple_emitAll {terms : Terms} (readings : Readings) (view : OrderView)
    {emissions : List Emission} (hFees : ∀ emission ∈ emissions, 0 ≤ emission.fee)
    (hEvents : ∀ emission ∈ emissions, emission.event p terms ∈ emitted) :
    Routine.Triple (Emitting p start emitted terms view) (emitAll p readings view emissions)
      (fun later => Emitting p start emitted terms later)
      (fun state => Tracked p start terms.orderId emitted state.commerce) := by
  induction emissions generalizing view with
  | nil => exact Routine.triple_pure fun _ h => h
  | cons emission rest ih =>
      refine Routine.triple_bind _ (triple_emit readings view (hFees emission List.mem_cons_self)
        (hEvents emission List.mem_cons_self)) fun later => ?_
      exact ih later (fun other h => hFees other (List.mem_cons_of_mem _ h))
        (fun other h => hEvents other (List.mem_cons_of_mem _ h))

theorem triple_settle {terms : Terms} (readings : Readings) (currentTime : Int)
    (sourceEventId : Option String) (opened : Opened) (paymentId : String) (view : OrderView)
    {settlement : Settlement} (hFee : 0 ≤ settlement.fee)
    (hEvents : ∀ emission ∈ settlement.reported p view.quotedAmountMinor currentTime readings,
      emission.event p terms ∈ emitted) :
    Routine.Triple (Emitting p start emitted terms view)
      (settle p readings currentTime sourceEventId opened paymentId view settlement)
      (fun _ state => Tracked p start terms.orderId emitted state.commerce)
      (fun state => Tracked p start terms.orderId emitted state.commerce) := by
  unfold settle
  refine Routine.triple_bind _ (triple_emit readings view hFee
    (hEvents settlement.captured List.mem_cons_self)) fun captured => ?_
  refine Routine.triple_bind (fun availableAt state => Emitting p start emitted terms captured state ∧
      settlement.availableTime p currentTime = .ok availableAt) ?_ fun availableAt => ?_
  · exact Routine.triple_reading (fun _ _ h hTime => ⟨h, hTime⟩) fun _ h => h.tracked
  refine Routine.triple_bind (fun later => Emitting p start emitted terms later) ?_
    fun later => ?_
  · intro store h
    have hFollowing : ∀ emission ∈ settlement.following p view.quotedAmountMinor availableAt readings,
        emission ∈ settlement.reported p view.quotedAmountMinor currentTime readings := by
      intro emission hEmission
      rw [Settlement.reported, h.2]
      exact List.mem_cons_of_mem _ hEmission
    refine triple_emitAll readings captured (fun emission hEmission => ?_) (fun emission hEmission =>
      hEvents emission (hFollowing emission hEmission)) store h.1
    exact settlement.emissions_fee hFee emission (List.mem_cons_of_mem _ hEmission)
  refine Routine.triple_bind (fun _ => Emitting p start emitted terms later) ?_
    fun checkoutId => ?_
  · exact Routine.triple_reading (fun _ _ h _ => h) fun _ h => h.tracked
  refine Routine.triple_bind (fun _ state => Tracked p start terms.orderId emitted state.commerce) ?_ fun _ => ?_
  · refine Routine.triple_transaction (fun before after _ h hBody => ?_) fun _ h => h.tracked
    obtain ⟨rfl, -⟩ := Prod.mk.inj (Except.ok.inj hBody)
    exact h.tracked
  · exact Routine.triple_pure fun _ h => h

/-- The order of a run, with its checkout attached. -/
structure Attached (p : Platform) (start : Commerce) (orderId checkoutId : String) : Prop where
  wellFormed : Commerce.WellFormed p start
  order : ∃ order, start.order? orderId = some order ∧ order.providerCheckoutId = some checkoutId

/-- The ledger right after the payment was reached. -/
def AtPayment (p : Platform) (adapter : Adapter) (start : Commerce) (orderId : String)
    (emitted : List ProviderEvent) (attempt : Attempt) (opened : Opened) (paymentId : String)
    (view : OrderView) (store : Store) : Prop :=
  Tracked p start orderId emitted store.commerce ∧ ∃ before, Tracked p start orderId emitted before ∧
    Reached p adapter attempt.snapshot orderId attempt.visit.readings before store.commerce opened
      paymentId view

theorem AtPayment.emitting {attempt : Attempt} {opened : Opened} {paymentId : String} {view : OrderView}
    {store : Store} (atPayment : AtPayment p adapter start orderId emitted attempt opened paymentId view
      store) :
    Emitting p start emitted (termsOf store.commerce orderId paymentId view) view store := by
  obtain ⟨tracked, before, hBefore, reached⟩ := atPayment
  obtain ⟨bound, shown⟩ := reached.terms hBefore.wellFormed
  exact ⟨tracked, bound, shown⟩

theorem triple_reconcileBound (attached : Attached p start orderId checkoutId) {attempt : Attempt}
    (hEvents : ∀ event ∈ attempt.events p adapter start orderId, event ∈ emitted)
    (opened : Opened) (paymentId : String) (view : OrderView) :
    Routine.Triple (AtPayment p adapter start orderId emitted attempt opened paymentId view)
      (reconcileBound p adapter attempt.snapshot orderId attempt.visit.sourceEventId
        attempt.visit.time.instant attempt.visit.readings opened paymentId view)
      (fun _ state => Tracked p start orderId emitted state.commerce)
      (fun state => Tracked p start orderId emitted state.commerce) := by
  unfold reconcileBound
  refine Routine.triple_bind
    (fun examination store => AtPayment p adapter start orderId emitted attempt opened paymentId view
      store ∧ examinePayment p adapter attempt.snapshot store.commerce.environment orderId view
        paymentId = .ok examination) ?_ fun examination => ?_
  · exact Routine.triple_reading (fun _ _ h hExamined => ⟨h, hExamined⟩) fun _ h => h.1
  rintro store ⟨atPayment, hExamined⟩
  have emitting := atPayment.emitting
  obtain ⟨tracked, before, hBefore, reached⟩ := atPayment
  obtain ⟨order, hOrder, hCheckout⟩ := attached.order
  have hReported := Attempt.events_of_reached attached.wellFormed hBefore.continues hOrder hCheckout
    hBefore.wellFormed reached hExamined
  have hEmitted : ∀ emission ∈ examination.reported p paymentId view.quotedAmountMinor
      attempt.visit.time.instant attempt.visit.readings,
      emission.event p (termsOf store.commerce orderId paymentId view) ∈ emitted := by
    intro emission hEmission
    apply hEvents
    rw [hReported]
    exact List.mem_map_of_mem hEmission
  cases examination with
  | failed createdAt =>
      exact Routine.triple_bind _ (triple_emit attempt.visit.readings view (le_refl 0)
        (hEmitted (failure paymentId createdAt) List.mem_cons_self))
        (fun _ => Routine.triple_pure fun _ h => h.tracked) store emitting
  | unpaid => exact tracked
  | settled settlement =>
      have reads := examinePayment_reads reached.paymentId? hExamined
      exact triple_settle attempt.visit.readings attempt.visit.time.instant attempt.visit.sourceEventId
        opened paymentId view reads.fee hEmitted store emitting

/-- A reconciliation keeps the ledger tracked, whether it returns or raises. -/
theorem Tracked.attempt (adapter : Adapter) (attached : Attached p start orderId checkoutId) {store : Store}
    (tracked : Tracked p start orderId emitted store.commerce) (attempt : Attempt) :
    Tracked p start orderId (emitted ++ attempt.events p adapter start orderId)
      (attempt.after p adapter orderId store).commerce := by
  have hStart := tracked.emitting (attempt.events p adapter start orderId)
  generalize hEmitted : emitted ++ attempt.events p adapter start orderId = all at hStart
  have hEvents : ∀ event ∈ attempt.events p adapter start orderId, event ∈ all := by
    intro event hEvent
    rw [← hEmitted]
    exact List.mem_append_right _ hEvent
  have hTriple : Routine.Triple (fun state => Tracked p start orderId all state.commerce)
      (attempt.visit.reconcile p adapter attempt.snapshot orderId)
      (fun _ state => Tracked p start orderId all state.commerce)
      (fun state => Tracked p start orderId all state.commerce) := by
    unfold Visit.reconcile reconcileOrder
    refine Routine.triple_bind (fun _ state => Tracked p start orderId all state.commerce) ?_ fun _ => ?_
    · exact Routine.triple_reading (fun _ _ h _ => h) fun _ h => h
    refine Routine.triple_bind (fun time state => Tracked p start orderId all state.commerce ∧
      time = attempt.visit.time.instant) ?_ fun time => ?_
    · refine Routine.triple_reading (fun _ _ h hTime => ⟨h, ?_⟩) fun _ h => h
      unfold awareDatetime at hTime
      simp only [Except.bind_eq_ok_iff, Except.pure_eq_ok_iff] at hTime
      obtain ⟨_, -, rfl⟩ := hTime
      rfl
    refine Routine.triple_assume fun hTime => ?_
    subst hTime
    refine Routine.triple_bind (fun opened state => Tracked p start orderId all state.commerce ∧
      openSession p adapter attempt.snapshot state.commerce orderId = .ok opened) ?_ fun opened => ?_
    · exact Routine.triple_reading (fun _ _ h hOpened => ⟨h, hOpened⟩) fun _ h => h
    unfold reconcileOpened
    split
    · exact Routine.triple_pure fun _ h => h.1
    next hPresent =>
      refine Routine.triple_bind (fun paymentId state => Tracked p start orderId all state.commerce ∧
        openSession p adapter attempt.snapshot state.commerce orderId = .ok opened ∧
        referenceId (member opened.session "payment_intent") Pattern.paymentId "PaymentIntent" =
          .ok paymentId) ?_ fun paymentId => ?_
      · exact Routine.triple_reading (fun _ _ h hReference => ⟨h.1, h.2, hReference⟩) fun _ h => h.1
      refine Routine.triple_bind (fun view => AtPayment p adapter start orderId all attempt opened
        paymentId view) ?_ fun view => triple_reconcileBound attached hEvents opened paymentId view
      refine Routine.triple_transaction (fun before after view h hBody => ?_) fun _ h => h.1
      simp only [Except.bind_eq_ok_iff, Except.pure_eq_ok_iff, Prod.mk.injEq] at hBody
      obtain ⟨⟨commerce, _⟩, hBound, rfl, rfl⟩ := hBody
      exact ⟨h.1.bind hBound, before.commerce, h.1, h.2.1, hPresent, h.2.2, hBound⟩
  exact hTriple.outcome hStart

/-- A run of reconciliations of one order keeps the ledger tracked. -/
theorem Tracked.run (adapter : Adapter) (attached : Attached p start orderId checkoutId) {store : Store}
    (tracked : Tracked p start orderId emitted store.commerce) (attempts : List Attempt) :
    Tracked p start orderId (emitted ++ attempts.flatMap (·.events p adapter start orderId))
      (Runs.run (fun store attempt => Attempt.after attempt p adapter orderId store) store
        attempts).commerce := by
  induction attempts generalizing store emitted with
  | nil =>
      rw [List.flatMap_nil, List.append_nil]
      exact tracked
  | cons attempt rest ih =>
      rw [List.flatMap_cons, ← List.append_assoc]
      exact ih (tracked.attempt adapter attached attempt)

end

end Stripe

end VouchSpec
