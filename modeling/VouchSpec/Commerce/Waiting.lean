import VouchSpec.Commerce.Reversal
import VouchSpec.Commerce.Turns

/-! Provider events that wait for their payment: when one of them comes to wait for
nothing, and the runs in which none does. -/

namespace VouchSpec

namespace Commerce

theorem arrivedBefore_total (left right : EventRow) : arrivedBefore left right ∨ arrivedBefore right left := by
  unfold arrivedBefore
  rcases Std.lt_trichotomy left.receivedAt.toList right.receivedAt.toList with h | h | h
  · exact Or.inl (Or.inl h)
  · rcases Std.le_total (a := left.eventId.toList) (b := right.eventId.toList) with hId | hId
    · exact Or.inl (Or.inr ⟨h, hId⟩)
    · exact Or.inr (Or.inr ⟨h.symm, hId⟩)
  · exact Or.inr (Or.inl h)

theorem arrivedBefore_trans {first second third : EventRow} (hFirst : arrivedBefore first second)
    (hSecond : arrivedBefore second third) : arrivedBefore first third := by
  unfold arrivedBefore at *
  rcases hFirst with hFirst | ⟨hFirst, hIds⟩
  · rcases hSecond with hSecond | ⟨hSecond, -⟩
    · exact Or.inl (Std.lt_trans hFirst hSecond)
    · exact Or.inl (hSecond ▸ hFirst)
  · rcases hSecond with hSecond | ⟨hSecond, hLater⟩
    · exact Or.inl (hFirst ▸ hSecond)
    · exact Or.inr ⟨hFirst.trans hSecond, Std.le_trans hIds hLater⟩

theorem arrivedBefore_antisymm {first second : EventRow} (hFirst : arrivedBefore first second)
    (hSecond : arrivedBefore second first) : first.eventId = second.eventId := by
  unfold arrivedBefore at *
  rcases hFirst with hFirst | ⟨hFirst, hIds⟩
  · rcases hSecond with hSecond | ⟨hSecond, -⟩
    · exact absurd (Std.lt_trans hFirst hSecond) Std.lt_irrefl
    · exact absurd (hSecond ▸ hFirst) Std.lt_irrefl
  · rcases hSecond with hSecond | ⟨-, hLater⟩
    · exact absurd (hFirst ▸ hSecond) Std.lt_irrefl
    · exact String.toList_injective (Std.le_antisymm hIds hLater)

variable {p : Platform} {db after : Commerce}

theorem pendingEvents_sorted (paymentId : String) : (db.pendingEvents paymentId).Pairwise arrivedBefore := by
  have : Std.Total arrivedBefore := ⟨arrivedBefore_total⟩
  have : IsTrans EventRow arrivedBefore := ⟨fun _ _ _ => arrivedBefore_trans⟩
  exact List.pairwise_insertionSort _ _

/-- The pending events of a payment are the sorted list of them. -/
theorem pendingEvents_eq {paymentId : String} {items : List EventRow} (hNodup : items.Nodup)
    (hSorted : items.Pairwise arrivedBefore) (hMembers : ∀ row, row ∈ items ↔ row ∈ db.pendingEvents paymentId) :
    db.pendingEvents paymentId = items := by
  have hPerm : (db.pendingEvents paymentId).Perm items :=
    (List.perm_ext_iff_of_nodup (pendingEvents_nodup db paymentId) hNodup).mpr fun row => (hMembers row).symm
  refine hPerm.eq_of_pairwise ?_ (pendingEvents_sorted paymentId) hSorted
  intro first second hFirst hSecond hBefore hAfter
  exact event_eq_of_eventId (mem_pendingEvents.mp hFirst).1 (mem_pendingEvents.mp ((hMembers second).mp hSecond)).1
    (arrivedBefore_antisymm hBefore hAfter)

theorem pendingEvents_ordered (paymentId : String) :
    Greedy.Ordered (fun db : Commerce => db.pendingEvents paymentId)
      (fun db row => db.applyEvent paymentId row.payload) := by
  intro state before row rest next hPending hAttempt
  have hNodup := pendingEvents_nodup state paymentId
  have hSorted := @pendingEvents_sorted state paymentId
  have hRow : row ∈ state.pendingEvents paymentId := by
    change state.pendingEvents paymentId = _ at hPending
    simp [hPending]
  have hConsumed := (applyEvent_consuming paymentId).consumes hRow hAttempt
  change state.pendingEvents paymentId = _ at hPending
  have hSublist : (before ++ rest).Sublist (before ++ row :: rest) :=
    List.Sublist.append_left (List.sublist_cons_self row rest) before
  rw [hPending] at hNodup hSorted
  refine pendingEvents_eq (hNodup.sublist hSublist) (hSorted.sublist hSublist) ?_
  intro other
  rw [hConsumed other, hPending]
  have hAbsent : row ∉ before ++ rest := (List.nodup_middle.mp hNodup).notMem
  simp only [List.mem_append, List.mem_cons] at hAbsent ⊢
  constructor
  · intro hOther
    refine ⟨hOther.imp id Or.inr, ?_⟩
    rintro rfl
    exact hAbsent hOther
  · rintro ⟨hBefore | hSame | hRest, hNe⟩
    · exact Or.inl hBefore
    · exact absurd hSame hNe
    · exact Or.inr hRest

end Commerce

/-- The event waits: its amount is right, and more transitions lead to its target. -/
structure OrderRow.Awaits (order : OrderRow) (event : ProviderEvent) : Prop where
  amount : order.Matches event
  ahead : order.paymentStatus ≠ event.type.target
  later : ¬ PaymentStatus.Edge order.paymentStatus event.type.target
  reach : PaymentStatus.Keeps order.paymentStatus event.type.target

theorem OrderRow.Awaits.not_admits {order : OrderRow} {event : ProviderEvent} (awaits : order.Awaits event) :
    ¬ order.Admits event := fun hAdmits => awaits.later hAdmits.1

namespace Commerce

variable {p : Platform} {db after : Commerce}

/-- Every pending event of an order's payment can still be applied some day. -/
def Unorphaned (db : Commerce) : Prop :=
  ∀ order ∈ db.orders.rows, ∀ row ∈ db.events.rows, row.status = .pending →
    order.providerPaymentId = some row.paymentId → PaymentStatus.Reaches order.paymentStatus row.eventType.target

/-- Every pending event of an order's payment waits. -/
def Poised (db : Commerce) : Prop :=
  ∀ order ∈ db.orders.rows, ∀ row ∈ db.events.rows, row.status = .pending →
    order.providerPaymentId = some row.paymentId → order.Awaits row.payload

theorem Poised.unorphaned (poised : db.Poised) : db.Unorphaned := by
  intro order hOrder row hRow hPending hBound
  have awaits := poised order hOrder row hRow hPending hBound
  exact awaits.reach.reaches awaits.ahead

theorem Poised.awaits (poised : db.Poised) {order : OrderRow} {row : EventRow} {paymentId : String}
    (hOrder : db.orderByPayment? paymentId = some order) (hRow : row ∈ db.pendingEvents paymentId) :
    order.Awaits row.payload := by
  obtain ⟨hStored, hBound⟩ := orderByPayment?_eq_some.mp hOrder
  obtain ⟨hMember, rfl, hPending⟩ := mem_pendingEvents.mp hRow
  exact poised order hStored row hMember hPending hBound

/-- A transition of a bound payment is not held up by the order's status. -/
theorem WellFormed.admits_of_edge (wellFormed : WellFormed p db) {order : OrderRow} {event : ProviderEvent}
    {paymentId : String} (hOrder : db.orderByPayment? paymentId = some order)
    (hEdge : PaymentStatus.Edge order.paymentStatus event.type.target) : order.Admits event := by
  obtain ⟨hStored, hBound⟩ := orderByPayment?_eq_some.mp hOrder
  have regular := wellFormed.order_regular hStored
  refine ⟨hEdge, ?_⟩
  intro hCaptured
  rw [hCaptured] at hEdge
  have hPending : order.paymentStatus = .pending := by
    revert hEdge
    cases order.paymentStatus <;> decide
  rcases regular.pending.mp hPending with hCheckout | hWaiting
  · rw [regular.payment (regular.checkout.mpr hCheckout)] at hBound
    cases hBound
  · exact hWaiting

/-- An operation that changes no payment status, and binds a payment at most once. -/
theorem Acts.poised {orderId : String} {condition : OrderRow → Prop} {effect : OrderRow → Effect}
    {order : OrderRow} (acts : Acts db after orderId condition effect order) (wellFormed : WellFormed p db)
    (poised : db.Poised)
    (hKeeps : condition order → ((effect order).change order).paymentStatus = order.paymentStatus ∧
      ((effect order).change order).quotedAmountMinor = order.quotedAmountMinor ∧
      ((effect order).change order).currency = order.currency ∧
      (((effect order).change order).providerPaymentId = order.providerPaymentId ∨ order.providerPaymentId = none)) :
    after.Poised := by
  obtain ⟨hStored, rfl⟩ := order?_eq_some.mp acts.stored
  obtain ⟨hStatus, hAmount, hCurrency, hPayment⟩ := hKeeps acts.condition
  intro later hLater row hRow hPending hBound
  have hEvent : row ∈ db.events.rows := acts.events ▸ hRow
  have hOrders := acts.affects.orders
  rw [hOrders] at hLater
  rcases Table.mem_changed.mp hLater with ⟨old, hOld, hSame, rfl⟩ | ⟨hOld, -⟩
  · obtain rfl : old = order := Option.some.inj
      ((order?_eq_some.mpr ⟨hOld, by simpa using hSame⟩).symm.trans acts.stored)
    have hStill : old.providerPaymentId = some row.paymentId := by
      rcases hPayment with hPayment | hFree
      · rw [← hPayment, hBound]
      · -- the payment of a stored event belongs to an order already
        obtain ⟨owner, hOwner, hOwned, -⟩ := wellFormed.event_orders row hEvent
        have hOther : owner.orderId ≠ old.orderId := by
          intro hId
          rw [order_eq_of_orderId hOwner hOld hId, hFree] at hOwned
          cases hOwned
        have hKept : owner ∈ after.orders.rows := by
          rw [hOrders]
          exact Table.mem_changed.mpr (Or.inr ⟨hOwner, by simpa using hOther⟩)
        have hChanged : (effect old).change old ∈ after.orders.rows := by
          rw [hOrders]
          exact hLater
        have hFirst : after.orderByPayment? row.paymentId = some owner := orderByPayment?_eq_some.mpr ⟨hKept, hOwned⟩
        have hSecond : after.orderByPayment? row.paymentId = some ((effect old).change old) :=
          orderByPayment?_eq_some.mpr ⟨hChanged, hBound⟩
        refine absurd ?_ hOther
        rw [Option.some.inj (hFirst.symm.trans hSecond), acts.affects.change_orderId]
    obtain ⟨amount, ahead, later, reach⟩ := poised old hOld row hEvent hPending hStill
    refine ⟨?_, hStatus ▸ ahead, hStatus ▸ later, hStatus ▸ reach⟩
    rw [OrderRow.Matches, hAmount, hCurrency]
    exact amount
  · exact poised later hOld row hEvent hPending hBound

/-- The events that wait for a payment, in the order in which they come up once a new
one is applied: those sorted after it, then those before. -/
def turn (db : Commerce) (row : EventRow) : List EventRow :=
  (db.pendingEvents row.paymentId).filter (fun other => arrivedBefore row other) ++
    (db.pendingEvents row.paymentId).filter fun other => ¬arrivedBefore row other

/-- An event arrives that the store accepts as new. -/
structure Arrives (p : Platform) (db : Commerce) (eventValue : Json) (received : String) (event : ProviderEvent)
    (order : OrderRow) : Prop where
  valid : db.validateEvent p eventValue = .ok event
  dated : ∃ instant, parseTimestamp p received = .ok instant
  fresh : db.event? event.eventId = none
  bound : db.orderByPayment? event.paymentId = some order
  provider : order.provider = event.provider

/-- An arriving event of the right amount is ahead of its payment, or where the payment is;
and where it can be applied at once, the events that wait come up in a good order. -/
def Timely (p : Platform) (db : Commerce) : Call → Prop
  | .ingestProviderEvent eventValue receivedAt utcNow =>
      ∀ event order, db.Arrives p eventValue (orElseNow p receivedAt utcNow) event order → order.Matches event →
        PaymentStatus.Keeps order.paymentStatus event.type.target ∧
          (order.Admits event → PaymentStatus.Orderly event.type.target
            ((db.turn (newEvent p event (orElseNow p receivedAt utcNow))).map fun row => row.eventType.target))
  | _ => True

/-- A started payment, and the events that come up for it in a good order. -/
def Onward (paymentId : String) (db : Commerce) (items : List EventRow) : Prop :=
  ∃ order, db.orderByPayment? paymentId = some order ∧ order.paymentStatus ≠ .pending ∧
    PaymentStatus.Orderly order.paymentStatus (items.map fun row => row.eventType.target)

/-- An attempt that makes progress leaves the rest in a good order. -/
theorem Onward.progress {paymentId : String} {row : EventRow} {rest : List EventRow}
    (onward : Onward paymentId db (row :: rest)) (hRow : row ∈ db.pendingEvents paymentId)
    (hAttempt : db.applyEvent paymentId row.payload = .ok (after, true)) : Onward paymentId after rest := by
  obtain ⟨order, hOrder, hStarted, orderly⟩ := onward
  obtain ⟨-, rfl, -⟩ := mem_pendingEvents.mp hRow
  obtain ⟨found, hFound, attempted⟩ := applyEvent_eq_ok.mp hAttempt
  obtain rfl : found = order := Option.some.inj (hFound.symm.trans hOrder)
  rcases attempted.posting hFound with ⟨-, hFlag⟩ | ⟨_, _, later, -, hLater, -, ⟨rfl, -⟩ | ⟨rfl, -, hAdmits⟩⟩
  · cases hFlag
  · exact ⟨later, hLater, hStarted, orderly.pass⟩
  · refine ⟨_, hLater, ?_⟩
    rw [(OrderRow.advance_status row.payload found).1]
    have hEdge : PaymentStatus.Edge found.paymentStatus row.eventType.target := hAdmits.1
    exact ⟨hEdge.started, orderly.move hEdge⟩

/-- An attempt at an event that is stuck may be made again at the end. -/
theorem Onward.idle {paymentId : String} {row : EventRow} {rest : List EventRow}
    (onward : Onward paymentId db (row :: rest))
    (hAttempt : db.applyEvent paymentId row.payload = .ok (db, false)) :
    Onward paymentId db (rest ++ [row]) := by
  obtain ⟨order, hOrder, hStarted, orderly⟩ := onward
  obtain ⟨-, hStatus, hAdmits⟩ := stuck_of_saturated hOrder hAttempt
  refine ⟨order, hOrder, hStarted, ?_⟩
  rw [List.map_append]
  refine orderly.postpone hStarted hStatus ?_
  intro hEdge
  change PaymentStatus.Edge order.paymentStatus row.eventType.target at hEdge
  refine hAdmits ⟨hEdge, ?_⟩
  -- only a payment that has not started can be captured
  intro hCaptured
  change row.eventType.target = _ at hCaptured
  rw [hCaptured] at hEdge
  revert hEdge hStarted
  cases order.paymentStatus <;> simp [PaymentStatus.Edge, paymentTransitions]

section
variable {event : ProviderEvent} {received : String} {order : OrderRow} {events : Table EventRow.eventId Eq}

/-- What is pending for the payment once a new event is stored. -/
theorem mem_pendingEvents_stored (hRows : events.rows = db.events.rows ++ [newEvent p event received]) {row : EventRow} :
    row ∈ ({ db with events } : Commerce).pendingEvents event.paymentId ↔
      row ∈ db.pendingEvents event.paymentId ∨ row = newEvent p event received := by
  rw [mem_pendingEvents, mem_pendingEvents]
  change row ∈ events.rows ∧ _ ↔ _
  rw [hRows, List.mem_append, List.mem_singleton]
  constructor
  · rintro ⟨hOld | hNew, hPayment, hPending⟩
    · exact Or.inl ⟨hOld, hPayment, hPending⟩
    · exact Or.inr hNew
  · rintro (⟨hOld, hPayment, hPending⟩ | rfl)
    · exact ⟨Or.inl hOld, hPayment, hPending⟩
    · exact ⟨Or.inr rfl, rfl, rfl⟩

/-- The new event among those that wait, at its place. -/
theorem pendingEvents_stored (hRows : events.rows = db.events.rows ++ [newEvent p event received])
    (hFresh : db.event? event.eventId = none) :
    ({ db with events } : Commerce).pendingEvents event.paymentId =
      (db.pendingEvents event.paymentId).filter (fun other => ¬arrivedBefore (newEvent p event received) other) ++
        newEvent p event received ::
          (db.pendingEvents event.paymentId).filter fun other => arrivedBefore (newEvent p event received) other := by
  have hAbsent : newEvent p event received ∉ db.pendingEvents event.paymentId := by
    intro hMember
    have hFound : db.event? event.eventId = some (newEvent p event received) :=
      event?_eq_some.mpr ⟨(mem_pendingEvents.mp hMember).1, rfl⟩
    rw [hFresh] at hFound
    cases hFound
  have hNodup := pendingEvents_nodup db event.paymentId
  have hSorted := @pendingEvents_sorted db event.paymentId
  refine pendingEvents_eq ?_ ?_ ?_
  · refine List.nodup_append.mpr ⟨hNodup.filter _, List.nodup_cons.mpr ⟨?_, hNodup.filter _⟩, ?_⟩
    · intro hMember
      exact hAbsent (List.mem_filter.mp hMember).1
    · intro first hFirst second hSecond hSame
      obtain ⟨hMember, hBefore⟩ := List.mem_filter.mp hFirst
      rcases List.mem_cons.mp hSecond with rfl | hAfter
      · exact hAbsent (hSame ▸ hMember)
      · rw [hSame] at hBefore
        simp [(List.mem_filter.mp hAfter).2] at hBefore
  · refine List.pairwise_append.mpr ⟨hSorted.filter _, List.pairwise_cons.mpr ⟨?_, hSorted.filter _⟩, ?_⟩
    · intro other hOther
      exact of_decide_eq_true (List.mem_filter.mp hOther).2
    · intro first hFirst second hSecond
      have hBefore : arrivedBefore first (newEvent p event received) := by
        rcases arrivedBefore_total first (newEvent p event received) with h | h
        · exact h
        · exact absurd h (of_decide_eq_true (List.mem_filter.mp hFirst).2)
      rcases List.mem_cons.mp hSecond with rfl | hAfter
      · exact hBefore
      · exact arrivedBefore_trans hBefore (of_decide_eq_true (List.mem_filter.mp hAfter).2)
  · intro row
    rw [mem_pendingEvents_stored hRows]
    simp only [List.mem_append, List.mem_cons, List.mem_filter, decide_eq_true_eq]
    by_cases hOrder : arrivedBefore (newEvent p event received) row <;> simp [hOrder, or_comm]

/-- The reconciliation that an event starts which can be applied at once. -/
inductive Stage (start : Commerce) (row : EventRow) (before after : List EventRow) (paymentId : String) :
    Commerce → List EventRow → Prop
  | waiting (passed left : List EventRow) (hBefore : before = passed ++ left) :
      Stage start row before after paymentId start (left ++ row :: (after ++ passed))
  | onward {db : Commerce} {items : List EventRow} (hOnward : Onward paymentId db items) :
      Stage start row before after paymentId db items

theorem stage_turning {start : Commerce} {row : EventRow} {before after : List EventRow}
    (hOrder : start.orderByPayment? row.paymentId = some order) (hMatches : order.Matches row.payload)
    (hAdmits : order.Admits row.payload) (hWaits : ∀ other ∈ before, order.Awaits other.payload)
    (orderly : PaymentStatus.Orderly row.eventType.target ((after ++ before).map fun row => row.eventType.target)) :
    Greedy.Turning (fun db : Commerce => db.pendingEvents row.paymentId)
      (fun db other => db.applyEvent row.paymentId other.payload)
      (Stage start row before after row.paymentId) := by
  have hEdge : PaymentStatus.Edge order.paymentStatus row.eventType.target := hAdmits.1
  have hStatus : order.paymentStatus ≠ row.payload.type.target := by
    intro hSame
    rw [OrderRow.Admits, hSame] at hAdmits
    revert hAdmits
    cases row.payload.type <;> simp [EventType.target, paymentTransitions]
  constructor
  · intro state item rest next hStage hPending hAttempt
    generalize hItems : item :: rest = items at hStage
    cases hStage with
    | waiting passed left hBefore =>
        obtain ⟨found, hFound, attempted⟩ := applyEvent_eq_ok.mp hAttempt
        obtain rfl : found = order := Option.some.inj (hFound.symm.trans hOrder)
        cases left with
        | nil =>
            obtain ⟨rfl, rfl⟩ := List.cons.inj hItems
            rcases attempted.posting hFound with ⟨-, hFlag⟩ | ⟨_, _, later, -, hLater, -, ⟨-, hSame⟩ | ⟨rfl, -, -⟩⟩
            · cases hFlag
            · exact absurd (hSame hMatches) hStatus
            · refine .onward ⟨_, hLater, ?_⟩
              rw [(OrderRow.advance_status item.payload found).1]
              rw [List.append_nil] at hBefore
              exact ⟨hEdge.started, hBefore ▸ orderly⟩
        | cons other others =>
            obtain ⟨rfl, rfl⟩ := List.cons.inj hItems
            have awaits := hWaits item (by simp [hBefore])
            cases attempted with
            | mismatched hOther => exact absurd awaits.amount hOther
            | repeated _ hSame => exact absurd hSame awaits.ahead
            | applied _ _ hAllowed => exact absurd hAllowed awaits.not_admits
    | onward hOnward =>
        subst hItems
        exact .onward (hOnward.progress hPending hAttempt)
  · intro state item rest hStage hPending hAttempt
    generalize hItems : item :: rest = items at hStage
    cases hStage with
    | waiting passed left hBefore =>
        cases left with
        | nil =>
            obtain ⟨rfl, rfl⟩ := List.cons.inj hItems
            exact absurd hAdmits (stuck_of_saturated hOrder hAttempt).2.2
        | cons other others =>
            obtain ⟨rfl, rfl⟩ := List.cons.inj hItems
            have hNext : others ++ row :: (after ++ passed) ++ [item] = others ++ row :: (after ++ (passed ++ [item])) := by
              simp
            show Stage start row before after row.paymentId start (others ++ row :: (after ++ passed) ++ [item])
            rw [hNext]
            exact .waiting (passed ++ [item]) others (by simp [hBefore])
    | onward hOnward =>
        subst hItems
        exact .onward (hOnward.idle hAttempt)

/-- Reconciliation after an event that cannot be applied at once leaves the order alone. -/
theorem reconcile_idle {start : Commerce} {row : EventRow}
    (hOrder : start.orderByPayment? row.paymentId = some order)
    (hIdle : ¬ (order.Matches row.payload ∧ order.Admits row.payload))
    (hWaits : ∀ other ∈ start.pendingEvents row.paymentId, other ≠ row → order.Awaits other.payload)
    (hReturns : start.reconcilePayment row.paymentId = .ok after) :
    after.orders = start.orders ∧
      ∀ other ∈ after.pendingEvents row.paymentId, other ∈ start.pendingEvents row.paymentId := by
  refine Greedy.loop_invariant (fun state : Commerce => state.orders = start.orders ∧
    ∀ other ∈ state.pendingEvents row.paymentId, other ∈ start.pendingEvents row.paymentId)
    (applyEvent_consuming row.paymentId) ?_ ⟨rfl, fun _ h => h⟩ hReturns
  rintro state item next progressed ⟨hOrders, hPending⟩ hItem hAttempt
  obtain ⟨found, hFound, attempted⟩ := applyEvent_eq_ok.mp hAttempt
  have hSame : found = order := by
    rw [orderByPayment?, hOrders] at hFound
    exact Option.some.inj (hFound.symm.trans hOrder)
  subst hSame
  constructor
  · rcases attempted.order? (orderByPayment?_eq_some.mp hFound).1 with hSame | ⟨hMatches, hAdmits, -⟩
    · exact hSame.trans hOrders
    · by_cases hOwn : item = row
      · exact absurd ⟨hOwn ▸ hMatches, hOwn ▸ hAdmits⟩ hIdle
      · exact absurd hAdmits (hWaits item (hPending item hItem) hOwn).not_admits
  · intro other hOther
    cases progressed with
    | false =>
        have hStill := (applyEvent_consuming row.paymentId).idle hAttempt
        exact hPending other (hStill ▸ hOther)
    | true =>
        exact hPending other (((applyEvent_consuming row.paymentId).consumes hItem hAttempt other).mp hOther).1

/-- A timely event leaves every event waiting that it does not apply. -/
theorem ingestEvent_poised (wellFormed : WellFormed p db) (poised : db.Poised) {result : Ingested}
    (hTimely : ∀ order, db.event? event.eventId = none → db.orderByPayment? event.paymentId = some order →
      order.provider = event.provider → order.Matches event →
      PaymentStatus.Keeps order.paymentStatus event.type.target ∧ (order.Admits event →
        PaymentStatus.Orderly event.type.target
          ((db.turn (newEvent p event received)).map fun row => row.eventType.target)))
    (hReturns : db.ingestEvent p event received = .ok (after, result)) : after.Poised := by
  have hMoved : WellFormed p after := ((ingestEvent_moves hReturns).wellFormed_continues wellFormed).1
  rcases ingestEvent_eq_ok.mp hReturns with
    ⟨_, _, -, -, -, rfl, -⟩ | ⟨order, events, _, hFresh, hOrder, hProvider, hInsert, hReconciled, -⟩
  · exact poised
  have hRows := (Table.insert?_eq_some.mp hInsert).2
  have elsewhere := reconcilePayment_elsewhere hReconciled
  have hStart : ({ db with events } : Commerce).orderByPayment? event.paymentId = some order := hOrder
  have hWaits : ∀ other ∈ db.pendingEvents event.paymentId, order.Awaits other.payload :=
    fun other hOther => poised.awaits hOrder hOther
  suffices hKeeps : ∀ later, after.orderByPayment? event.paymentId = some later →
      ∀ row ∈ after.pendingEvents event.paymentId, later.Matches row.payload →
        PaymentStatus.Keeps later.paymentStatus row.eventType.target by
    intro later hLater row hRow hPending hBound
    by_cases hPayment : row.paymentId = event.paymentId
    · rw [hPayment] at hBound
      have hCurrent : after.orderByPayment? event.paymentId = some later := orderByPayment?_eq_some.mpr ⟨hLater, hBound⟩
      have hWaiting : row ∈ after.pendingEvents event.paymentId := mem_pendingEvents.mpr ⟨hRow, hPayment, hPending⟩
      obtain ⟨hMatches, hStatus, hAdmits⟩ :=
        stuck_of_saturated hCurrent (reconcilePayment_saturated hReconciled row hWaiting)
      exact ⟨hMatches, hStatus, fun hEdge => hAdmits (hMoved.admits_of_edge hCurrent hEdge),
        hKeeps later hCurrent row hWaiting hMatches⟩
    · have hOld : later ∈ db.orders.rows := elsewhere.orders later hLater (by
        rw [hBound]
        simpa using hPayment)
      have hStored : row ∈ events.rows := elsewhere.events row hRow hPayment
      rw [hRows, List.mem_append, List.mem_singleton] at hStored
      rcases hStored with hStored | rfl
      · exact poised later hOld row hStored hPending hBound
      · exact absurd rfl hPayment
  by_cases hApplied : order.Matches event ∧ order.Admits event
  · -- the loop applies the event, and then those that wait as they come up
    obtain ⟨hMatches, hAdmits⟩ := hApplied
    have orderly := (hTimely order hFresh hOrder hProvider hMatches).2 hAdmits
    have hPending := pendingEvents_stored hRows hFresh
    generalize hBefore : (db.pendingEvents event.paymentId).filter
      (fun other => ¬arrivedBefore (newEvent p event received) other) = before at hPending
    generalize hAfter : (db.pendingEvents event.paymentId).filter
      (fun other => arrivedBefore (newEvent p event received) other) = later at hPending
    have hTurn : db.turn (newEvent p event received) = later ++ before := by
      rw [← hBefore, ← hAfter]
      rfl
    rw [hTurn] at orderly
    have hBeforeWaits : ∀ other ∈ before, order.Awaits other.payload := by
      intro other hOther
      rw [← hBefore] at hOther
      exact hWaits other (List.mem_filter.mp hOther).1
    have turning := @stage_turning order { db with events } (newEvent p event received) before later hStart hMatches
      hAdmits hBeforeWaits orderly
    have hFirst : Stage { db with events } (newEvent p event received) before later event.paymentId { db with events }
        (before ++ newEvent p event received :: (later ++ [])) := .waiting [] before rfl
    rw [List.append_nil, ← hPending] at hFirst
    have hLast := Greedy.loop_turning (applyEvent_consuming event.paymentId) (pendingEvents_ordered event.paymentId)
      turning hFirst hReconciled
    intro last hCurrent row hRow _
    change Stage _ _ before later event.paymentId after (after.pendingEvents event.paymentId) at hLast
    generalize hItems : after.pendingEvents event.paymentId = items at hLast hRow
    cases hLast with
    | waiting passed left _ =>
        have hNew : newEvent p event received ∈ ({ db with events } : Commerce).pendingEvents event.paymentId :=
          (mem_pendingEvents_stored hRows).mpr (Or.inr rfl)
        exact absurd hAdmits
          (stuck_of_saturated hStart (reconcilePayment_saturated hReconciled _ hNew)).2.2
    | onward hOnward =>
        obtain ⟨reached, hReached, -, hGood⟩ := hOnward
        obtain rfl : reached = last := Option.some.inj (hReached.symm.trans hCurrent)
        exact hGood.mem (List.mem_map_of_mem hRow)
  · have hOthers : ∀ other ∈ ({ db with events } : Commerce).pendingEvents event.paymentId,
        other ≠ newEvent p event received → order.Awaits other.payload := by
      intro other hOther hNe
      rcases (mem_pendingEvents_stored hRows).mp hOther with hOld | hNew
      · exact hWaits other hOld
      · exact absurd hNew hNe
    obtain ⟨hOrders, hPending⟩ := @reconcile_idle after order { db with events } (newEvent p event received) hStart
      hApplied hOthers hReconciled
    intro last hCurrent row hRow hMatches
    have hSame : last = order := by
      rw [orderByPayment?, hOrders] at hCurrent
      exact Option.some.inj (hCurrent.symm.trans hStart)
    rw [hSame] at hMatches ⊢
    by_cases hNew : row = newEvent p event received
    · rw [hNew] at hMatches ⊢
      exact (hTimely order hFresh hOrder hProvider hMatches).1
    · exact (hOthers row (hPending row hRow) hNew).reach

end

/-- A call that no event comes too late with leaves every pending event waiting. -/
theorem step_poised (wellFormed : WellFormed p db) (poised : db.Poised) (call : Call) (timely : db.Timely p call) :
    (db.step p call).Poised := by
  unfold step
  split
  case h_2 => exact poised
  next next hCommitted =>
  cases call <;> simp only [committed, Except.map_eq_ok_iff, Prod.exists] at hCommitted
  all_goals obtain ⟨after, view, hReturns, rfl⟩ := hCommitted
  case createQuote =>
    rcases createQuote_origin hReturns with rfl | ⟨_, _, -, -, rfl⟩
    · exact poised
    · exact poised
  case createOrder =>
    rcases createOrder_opens wellFormed.quotes_priced hReturns with
      rfl | ⟨order, orders, _, _, hNew, hRows, rfl⟩
    · exact poised
    · intro later hLater row hRow hPending hBound
      change later ∈ orders.rows at hLater
      rw [hRows, List.mem_append, List.mem_singleton] at hLater
      rcases hLater with hOld | rfl
      · exact poised later hOld row hRow hPending hBound
      · rw [hNew.bindings.2] at hBound
        cases hBound
  case attachCheckout =>
    rcases attachCheckout_acts hReturns with rfl | ⟨_, order, acts⟩
    · exact poised
    · refine acts.poised wellFormed poised fun hFree => ⟨rfl, rfl, rfl, Or.inr ?_⟩
      exact (wellFormed.order_regular (order?_eq_some.mp acts.stored).1).payment hFree.2
  case bindProviderPayment =>
    rcases bindProviderPayment_acts hReturns with rfl | ⟨order, acts⟩
    · exact poised
    · exact acts.poised wellFormed poised fun hFree => ⟨rfl, rfl, rfl, Or.inr hFree.2⟩
  case ingestProviderEvent =>
    obtain ⟨event, instant, hValid, hDated, hIngested⟩ := ingestProviderEvent_eq_ok.mp hReturns
    refine ingestEvent_poised wellFormed poised ?_ hIngested
    intro order hFresh hOrder hProvider hMatches
    exact timely event order ⟨hValid, ⟨instant, hDated⟩, hFresh, hOrder, hProvider⟩ hMatches
  case recordDirectCosts =>
    rcases recordDirectCosts_acts hReturns with rfl | ⟨_, _, -, acts⟩
    · exact poised
    · exact acts.poised wellFormed poised fun _ => ⟨rfl, rfl, rfl, Or.inl rfl⟩
  case deliver =>
    rcases deliver_acts hReturns with ⟨rfl, -⟩ | ⟨_, acts⟩
    · exact poised
    · exact acts.poised wellFormed poised fun _ => ⟨rfl, rfl, rfl, Or.inl rfl⟩
  all_goals
    rcases transitionOrder_acts hReturns with ⟨rfl, -⟩ | ⟨_, acts⟩
    · exact poised
    · exact acts.poised wellFormed poised fun _ => ⟨rfl, rfl, rfl, Or.inl rfl⟩

/-- In a run whose events all come in time, no pending event is ever out of reach. -/
theorem unorphaned_of_timely (p : Platform) (environment : Environment) (calls : List Call)
    (hTimely : Runs.Meets (step p) (Timely p) (empty environment) calls) (before : List Call)
    (hReached : before <+: calls) : (Runs.run (step p) (empty environment) before).Unorphaned := by
  obtain ⟨rest, rfl⟩ := hReached
  have hBefore := (Runs.meets_append.mp hTimely).1
  refine (hBefore.kept (WellFormed p) Poised (fun _ call _ h => step_wellFormed h call)
    (fun _ call timely wellFormed poised => step_poised wellFormed poised call timely)
    (empty_wellFormed environment) ?_).unorphaned
  intro order hOrder
  cases hOrder

/-- A sandbox payment that waits, and then events of its provider. -/
def paid (events : List ProviderEvent) : List Call :=
  Sample.waiting ++ events.map fun event => .ingestProviderEvent event.toJson none Sample.newYear

theorem meets_waiting : Runs.Meets (step .standard) (Timely .standard) (empty .sandbox) Sample.waiting :=
  ⟨trivial, trivial, trivial, trivial⟩

theorem unorphaned_of_captured :
    (Runs.run (step .standard) (empty .sandbox) (paid [Sample.event "1" .captured 4900 172])).Unorphaned := by
  refine unorphaned_of_timely .standard .sandbox _ ?_ _ List.prefix_rfl
  refine Runs.meets_append.mpr ⟨meets_waiting, ?_, trivial⟩
  have hState : (Runs.run (step .standard) (empty .sandbox) Sample.waiting).orderByPayment?
        Sample.paymentId = some Sample.waitingOrder ∧
      (Runs.run (step .standard) (empty .sandbox) Sample.waiting).events.rows = [] ∧
      (Runs.run (step .standard) (empty .sandbox) Sample.waiting).validateEvent .standard
        (Sample.event "1" .captured 4900 172).toJson = .ok (Sample.event "1" .captured 4900 172) := by decide +kernel
  obtain ⟨hOrder, hNone, hValid⟩ := hState
  intro event order arrives _
  obtain rfl := Except.ok.inj (hValid.symm.trans arrives.valid)
  obtain rfl := Option.some.inj (hOrder.symm.trans arrives.bound)
  refine ⟨PaymentStatus.keeps_iff.mpr (by decide), fun _ => ?_⟩
  rw [turn, pendingEvents, hNone]
  refine ⟨?_, by simp⟩
  intro reached rest course
  cases course
  simp

/-- A payment that fails and is captured after all leaves the capture pending for ever. -/
theorem captured_after_failed : ¬ ∀ (p : Platform) (environment : Environment) (calls : List Call),
    (Runs.run (step p) (empty environment) calls).Unorphaned := by
  intro hAll
  have hOrphan : ∃ order ∈ (Runs.run (step .standard) (empty .sandbox) (paid [Sample.event "1" .failed 4900 0,
        Sample.event "2" .captured 4900 172])).orders.rows,
      ∃ row ∈ (Runs.run (step .standard) (empty .sandbox) (paid [Sample.event "1" .failed 4900 0,
        Sample.event "2" .captured 4900 172])).events.rows,
      row.status = .pending ∧ order.providerPaymentId = some row.paymentId ∧ order.paymentStatus = .failed ∧
        row.eventType.target = .captured := by decide +kernel
  obtain ⟨order, hOrder, row, hRow, hPending, hBound, hFailed, hCaptured⟩ := hOrphan
  have hReaches := hAll .standard .sandbox _ order hOrder row hRow hPending hBound
  rw [hFailed, hCaptured] at hReaches
  exact absurd (PaymentStatus.keeps_iff.mp hReaches.keeps) (by decide)

end Commerce

end VouchSpec
