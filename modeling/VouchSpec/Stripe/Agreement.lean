import VouchSpec.Stripe.Tracking

/-! The adapter's state and the ledger's payment status over a history of
snapshots. They agree, except where the ledger had already reached a terminal
status from an earlier snapshot. -/

namespace VouchSpec

namespace PaymentStatus

/-- The event of this type has led here, or leads nowhere from here. -/
def Lands (status : PaymentStatus) (type : EventType) : Prop :=
  status ∈ type.target.leads ∨ type.target ∉ paymentTransitions status

instance (status : PaymentStatus) (type : EventType) : Decidable (status.Lands type) :=
  inferInstanceAs (Decidable (_ ∨ _))

theorem ends_disputed : ∀ status : PaymentStatus, status ≠ .pending → status ≠ .failed →
    status ≠ .refunded → status.Lands .disputed → status = .disputed := by decide

theorem ends_refunded : ∀ status : PaymentStatus, status ≠ .pending → status ≠ .failed →
    status ≠ .disputed → status.Lands .refundPending → status.Lands .refunded →
    status = .refunded := by decide

theorem ends_available : ∀ status : PaymentStatus, status ≠ .pending → status ≠ .failed →
    status ≠ .disputed → status ≠ .refundPending ∧ status ≠ .refunded → status.Lands .available →
    status = .available := by decide

theorem ends_captured : ∀ status : PaymentStatus, status ≠ .pending → status ≠ .failed →
    status ≠ .disputed → status ≠ .refundPending ∧ status ≠ .refunded → status ≠ .available →
    status = .captured := by decide

end PaymentStatus

namespace OrderRow

variable {order : OrderRow} {rows : List EventRow}

/-- Every pending event that is for the quoted amount is stuck. -/
def Stuck (order : OrderRow) (rows : List EventRow) : Prop :=
  ∀ row ∈ rows, row.status = .pending → ¬order.Admits row.payload

/-- A stored event has led the order on, or leads nowhere from where it is. -/
theorem Posted.lands (posted : order.Posted rows) (stuck : order.Stuck rows) {event : ProviderEvent}
    (hStored : event ∈ rows.map EventRow.payload) (hMatches : order.Matches event) :
    order.paymentStatus ∈ event.type.target.leads ∨ ¬order.Admits event := by
  obtain ⟨row, hRow, rfl⟩ := List.mem_map.mp hStored
  by_cases hPending : row.status = .pending
  · exact Or.inr (stuck row hRow hPending)
  · exact Or.inl (posted.consumed row hRow hMatches hPending)

/-- A captured event takes a bound order out of the pending status. -/
theorem Posted.captured_lands (posted : order.Posted rows) (stuck : order.Stuck rows)
    (regular : order.Regular) (hBound : order.providerPaymentId.isSome) {event : ProviderEvent}
    (hStored : event ∈ rows.map EventRow.payload) (hMatches : order.Matches event)
    (hType : event.type = .captured) : order.paymentStatus ≠ .pending := by
  intro hPending
  rcases posted.lands stuck hStored hMatches with hLed | hStuck
  · rw [hPending, hType] at hLed
    simp [EventType.target, PaymentStatus.leads] at hLed
  · apply hStuck
    refine ⟨by rw [hPending, hType]; simp [EventType.target, paymentTransitions], fun _ => ?_⟩
    rcases regular.pending.mp hPending with hCheckout | hWaiting
    · rw [regular.payment (regular.checkout.mpr hCheckout)] at hBound
      cases hBound
    · exact hWaiting

/-- Any other event has led the order on, or no transition leads to it. -/
theorem Posted.other_lands (posted : order.Posted rows) (stuck : order.Stuck rows)
    {event : ProviderEvent} (hStored : event ∈ rows.map EventRow.payload)
    (hMatches : order.Matches event) (hType : event.type ≠ .captured) :
    order.paymentStatus.Lands event.type := by
  apply (posted.lands stuck hStored hMatches).imp_right
  intro hStuck hEdge
  exact hStuck ⟨hEdge, fun hTarget => absurd (EventType.target_injective hTarget) hType⟩

end OrderRow

namespace Stripe

namespace Snapshot

/-- The fact of a snapshot that an event of each type reports. -/
def Justifies (snapshot : Snapshot) (checkoutId : String) (amount : Nat) : EventType → Prop
  | .captured => snapshot.Succeeded checkoutId
  | .available => snapshot.Available checkoutId
  | .failed => snapshot.Declined checkoutId ∧ ¬snapshot.Succeeded checkoutId
  | .refundPending => snapshot.Refunded checkoutId amount ∧ ¬snapshot.Disputed checkoutId
  | .refunded => snapshot.Refunded checkoutId amount ∧ ¬snapshot.Disputed checkoutId
  | .disputed => snapshot.Disputed checkoutId

/-- Nothing that the earlier snapshot shows is taken back by what the later one
retrieves. -/
structure Advances (checkoutId : String) (amount : Nat) (earlier later : Snapshot) : Prop where
  succeeded : earlier.Succeeded checkoutId → ∀ payment ∈ later.payment? checkoutId,
    member payment "status" = .str "succeeded"
  available : earlier.Available checkoutId → ∀ balance ∈ later.balance? checkoutId,
    member balance "status" = .str "available"
  refunded : earlier.Refunded checkoutId amount → ∀ charge ∈ later.charge? checkoutId,
    member charge "amount_refunded" = .int amount
  disputed : earlier.Disputed checkoutId → ∀ charge ∈ later.charge? checkoutId,
    member charge "disputed" = .bool true

end Snapshot

section
variable {p : Platform} {adapter : Adapter} {start : Commerce} {orderId checkoutId : String}

/-- What an examination reports is what the snapshot shows. -/
theorem Examination.reported_justified {attempt : Attempt} {environment : Environment}
    {paymentId : String} {view : OrderView} {examination : Examination}
    (hPayment : attempt.snapshot.paymentId? checkoutId = some paymentId)
    (hExamined : examinePayment p adapter attempt.snapshot environment orderId view paymentId =
      .ok examination) {currentTime : Int} {readings : Readings} {emission : Emission}
    (hEmission : emission ∈ examination.reported p paymentId view.quotedAmountMinor currentTime
      readings) :
    attempt.snapshot.Justifies checkoutId view.quotedAmountMinor emission.type := by
  have hReads := examinePayment_reads hPayment hExamined
  cases examination with
  | failed createdAt =>
      rw [List.mem_singleton.mp hEmission]
      exact hReads
  | unpaid => cases hEmission
  | settled settlement =>
      rcases List.mem_cons.mp hEmission with rfl | hFollowing
      · exact hReads.succeeded
      split at hFollowing
      · rcases List.mem_append.mp hFollowing with hAvailable | hClocked
        · split at hAvailable
          · next hStatus =>
              rw [List.mem_singleton.mp hAvailable]
              exact hReads.available.mp hStatus
          · cases hAvailable
        · obtain ⟨type, hType, rfl⟩ := List.mem_map.mp hClocked
          unfold Settlement.clocked at hType
          split at hType
          · next hDisputed =>
              rw [List.mem_singleton.mp hType]
              exact hReads.disputed.mp hDisputed
          · next hDisputed =>
              split at hType
              · next hRefunded =>
                  have hFact := And.intro (hReads.refunded.mp hRefunded)
                    fun h => hDisputed (hReads.disputed.mpr h)
                  simp only [List.mem_cons, List.not_mem_nil, or_false] at hType
                  rcases hType with rfl | rfl <;> exact hFact
              · cases hType
      · cases hFollowing

/-- Every emitted event is for the order's amount and reports a fact of its
snapshot. -/
theorem Attempt.events_justified {attempt : Attempt} {order : OrderRow}
    (hOrder : start.order? orderId = some order) (hCheckout : order.providerCheckoutId = some checkoutId)
    {event : ProviderEvent} (hEvent : event ∈ attempt.events p adapter start orderId) :
    attempt.snapshot.Justifies checkoutId order.quotedAmountMinor event.type ∧
      event.amountMinor = order.quotedAmountMinor ∧ event.currency = freshValidationCurrency := by
  obtain ⟨view, hView, shows⟩ := Commerce.orderView_returns hOrder
  have hAttached : view.providerCheckoutId = some checkoutId :=
    shows.providerCheckoutId.trans hCheckout
  simp only [Attempt.events, hView, Except.toOption, hAttached, Option.bind_eq_bind, Option.bind_some,
    Option.pure_def] at hEvent
  cases hPayment : attempt.snapshot.paymentId? checkoutId with
  | none => simp [hPayment] at hEvent
  | some paymentId =>
      cases hExamined : examinePayment p adapter attempt.snapshot start.environment orderId view
          paymentId with
      | error raised => simp [hPayment, hExamined] at hEvent
      | ok examination =>
          simp only [hPayment, hExamined, Option.bind_some, Option.getD_some, List.mem_map] at hEvent
          obtain ⟨emission, hEmission, rfl⟩ := hEvent
          rw [← shows.quotedAmountMinor]
          exact ⟨Examination.reported_justified hPayment hExamined hEmission, rfl, rfl⟩

/-- The facts of an earlier snapshot hold of a later one that is retrieved whole. -/
theorem Settlement.Reads.keeps {settlement : Settlement} {snapshot earlier : Snapshot} {amount : Nat}
    (reads : settlement.Reads snapshot checkoutId amount)
    (advances : Snapshot.Advances checkoutId amount earlier snapshot) :
    (earlier.Available checkoutId → snapshot.Available checkoutId) ∧
      (earlier.Refunded checkoutId amount → snapshot.Refunded checkoutId amount) ∧
      (earlier.Disputed checkoutId → snapshot.Disputed checkoutId) := by
  obtain ⟨charge, hCharge⟩ := Option.isSome_iff_exists.mp reads.retrieved.1
  obtain ⟨balance, hBalance⟩ := Option.isSome_iff_exists.mp reads.retrieved.2
  exact ⟨fun h => ⟨balance, hBalance, advances.available h balance hBalance⟩,
    fun h => ⟨charge, hCharge, advances.refunded h charge hCharge⟩,
    fun h => ⟨charge, hCharge, advances.disputed h charge hCharge⟩⟩

/-- The payment status that a derived state stands for. -/
def agreeingStatus (state : String) : Option PaymentStatus :=
  if state = "pending" then some .captured
  else if state = "available" then some .available
  else if state = "refunded" then some .refunded
  else if state = "disputed" then some .disputed
  else none

/-- The ledger has the agreeing status, or an earlier snapshot had ended it:
with a declined payment, or with a full refund before the dispute. -/
def Agreement (checkoutId : String) (amount : Nat) (earlier : List Snapshot) (state : String)
    (status : PaymentStatus) : Prop :=
  agreeingStatus state = some status ∨
    (status = .failed ∧ ∃ snapshot ∈ earlier, snapshot.Declined checkoutId) ∨
    (state = "disputed" ∧ status = .refunded ∧ ∃ snapshot ∈ earlier,
      snapshot.Refunded checkoutId amount ∧ ¬snapshot.Disputed checkoutId)

/-- Where the events of a settlement and of the snapshots before it lead. -/
theorem agreement_of_posted (earlier : List Snapshot) {settlement : Settlement} {snapshot : Snapshot}
    {order : OrderRow} {rows : List EventRow} (posted : order.Posted rows) (stuck : order.Stuck rows)
    (regular : order.Regular) (hBound : order.providerPaymentId.isSome)
    (hMatches : ∀ event ∈ rows.map EventRow.payload, order.Matches event)
    (hJustified : ∀ event ∈ rows.map EventRow.payload, ∃ source ∈ earlier ++ [snapshot],
      source.Justifies checkoutId order.quotedAmountMinor event.type)
    (hAdvances : ∀ source ∈ earlier,
      Snapshot.Advances checkoutId order.quotedAmountMinor source snapshot)
    (reads : settlement.Reads snapshot checkoutId order.quotedAmountMinor)
    (hStored : ∀ type, type = .captured ∨ (type = .available ∧ settlement.balanceStatus = .available) ∨
      type ∈ settlement.clocked order.quotedAmountMinor →
      ∃ event ∈ rows.map EventRow.payload, event.type = type) :
    Agreement checkoutId order.quotedAmountMinor earlier (settlement.state order.quotedAmountMinor)
      order.paymentStatus := by
  have hPaid : order.paymentStatus ≠ .pending := by
    obtain ⟨event, hEvent, hType⟩ := hStored .captured (Or.inl rfl)
    exact posted.captured_lands stuck regular hBound hEvent (hMatches event hEvent) hType
  have hLands : ∀ type, type ≠ .captured →
      (type = .available ∧ settlement.balanceStatus = .available) ∨
        type ∈ settlement.clocked order.quotedAmountMinor →
      order.paymentStatus.Lands type := by
    intro type hType hMade
    obtain ⟨event, hEvent, rfl⟩ := hStored type (Or.inr hMade)
    exact posted.other_lands stuck hEvent (hMatches event hEvent) hType
  have hReason : ∀ type : EventType, type.target = order.paymentStatus →
      ∃ source ∈ earlier ++ [snapshot],
        source.Justifies checkoutId order.quotedAmountMinor type := by
    intro type hTarget
    obtain ⟨event, hEvent, -, hStatus⟩ := posted.current hPaid
    obtain rfl := EventType.target_injective (hStatus.trans hTarget.symm)
    exact hJustified event hEvent
  have hKept : ∀ source ∈ earlier ++ [snapshot],
      (source.Available checkoutId → snapshot.Available checkoutId) ∧
      (source.Refunded checkoutId order.quotedAmountMinor →
        snapshot.Refunded checkoutId order.quotedAmountMinor) ∧
      (source.Disputed checkoutId → snapshot.Disputed checkoutId) := by
    intro source hSource
    rcases List.mem_append.mp hSource with hEarlier | hLast
    · exact reads.keeps (hAdvances source hEarlier)
    · rw [List.mem_singleton.mp hLast]
      exact ⟨id, id, id⟩
  have hEarlier : ∀ {fact : Snapshot → Prop}, ¬fact snapshot →
      (∃ source ∈ earlier ++ [snapshot], fact source) → ∃ source ∈ earlier, fact source := by
    rintro fact hNot ⟨source, hSource, hFact⟩
    rcases List.mem_append.mp hSource with hBefore | hLast
    · exact ⟨source, hBefore, hFact⟩
    · rw [List.mem_singleton.mp hLast] at hFact
      exact absurd hFact hNot
  -- A status that the ledger has reached is one that some snapshot justifies.
  have hFailed : order.paymentStatus = .failed → ∃ source ∈ earlier, source.Declined checkoutId := by
    intro hStatus
    obtain ⟨source, hSource, hDeclined, -⟩ :=
      hEarlier (fun h => h.2 reads.succeeded) (hReason .failed hStatus.symm)
    exact ⟨source, hSource, hDeclined⟩
  have hAvailable : order.paymentStatus = .available → settlement.balanceStatus = .available := by
    intro hStatus
    obtain ⟨source, hSource, hFact⟩ := hReason .available hStatus.symm
    exact reads.available.mpr ((hKept source hSource).1 hFact)
  have hRefunded : order.paymentStatus = .refundPending ∨ order.paymentStatus = .refunded →
      settlement.amountRefunded = order.quotedAmountMinor := by
    intro hStatus
    obtain ⟨source, hSource, hFact, -⟩ : ∃ source ∈ earlier ++ [snapshot],
        source.Refunded checkoutId order.quotedAmountMinor ∧ ¬source.Disputed checkoutId := by
      rcases hStatus with hStatus | hStatus
      · exact hReason .refundPending hStatus.symm
      · exact hReason .refunded hStatus.symm
    exact reads.refunded.mpr ((hKept source hSource).2.1 hFact)
  have hDisputed : order.paymentStatus = .disputed → settlement.disputed = .bool true := by
    intro hStatus
    obtain ⟨source, hSource, hFact⟩ := hReason .disputed hStatus.symm
    exact reads.disputed.mpr ((hKept source hSource).2.2 hFact)
  by_cases hFailure : order.paymentStatus = .failed
  · exact Or.inr (Or.inl ⟨hFailure, hFailed hFailure⟩)
  by_cases hDispute : settlement.disputed = .bool true
  · have hClocked : settlement.clocked order.quotedAmountMinor = [.disputed] := by
      rw [Settlement.clocked, if_pos hDispute]
    have hState : settlement.state order.quotedAmountMinor = "disputed" := by
      rw [Settlement.state, if_pos hDispute]
    have hLanded := hLands .disputed (by decide) (Or.inr (by rw [hClocked]; simp))
    rw [hState]
    by_cases hRefund : order.paymentStatus = .refunded
    · have hSource := hEarlier (fun h => h.2 (reads.disputed.mp hDispute))
        (hReason .refunded hRefund.symm)
      exact Or.inr (Or.inr ⟨rfl, hRefund, hSource⟩)
    · left
      rw [PaymentStatus.ends_disputed _ hPaid hFailure hRefund hLanded]
      rfl
  have hUndisputed : order.paymentStatus ≠ .disputed := fun h => hDispute (hDisputed h)
  left
  by_cases hRefund : settlement.amountRefunded = order.quotedAmountMinor
  · have hClocked : settlement.clocked order.quotedAmountMinor = [.refundPending, .refunded] := by
      rw [Settlement.clocked, if_neg hDispute, if_pos hRefund]
    have hState : settlement.state order.quotedAmountMinor = "refunded" := by
      rw [Settlement.state, if_neg hDispute, if_pos hRefund]
    have hPending := hLands .refundPending (by decide) (Or.inr (by rw [hClocked]; simp))
    have hLanded := hLands .refunded (by decide) (Or.inr (by rw [hClocked]; simp))
    rw [hState, PaymentStatus.ends_refunded _ hPaid hFailure hUndisputed hPending hLanded]
    rfl
  have hUnrefunded : order.paymentStatus ≠ .refundPending ∧ order.paymentStatus ≠ .refunded :=
    ⟨fun h => hRefund (hRefunded (Or.inl h)), fun h => hRefund (hRefunded (Or.inr h))⟩
  have hState : settlement.state order.quotedAmountMinor = settlement.balanceStatus.value := by
    rw [Settlement.state, if_neg hDispute, if_neg hRefund]
  rw [hState]
  cases hBalance : settlement.balanceStatus with
  | available =>
      have hLanded := hLands .available (by decide) (Or.inl ⟨rfl, hBalance⟩)
      rw [PaymentStatus.ends_available _ hPaid hFailure hUndisputed hUnrefunded hLanded]
      rfl
  | pending =>
      have hUnavailable : order.paymentStatus ≠ .available := by
        intro h
        rw [hAvailable h] at hBalance
        cases hBalance
      rw [PaymentStatus.ends_captured _ hPaid hFailure hUndisputed hUnrefunded hUnavailable]
      rfl

/-- The events stored for the order's payment are for its amount, and each
reports a fact of some snapshot. -/
theorem Tracked.stored_justified {attempts : List Attempt} {db : Commerce}
    (tracked : Tracked p start orderId (attempts.flatMap (·.events p adapter start orderId)) db)
    (wellFormed : Commerce.WellFormed p start) {order last : OrderRow}
    (hOrder : start.order? orderId = some order) (hCheckout : order.providerCheckoutId = some checkoutId)
    {paymentId : String} (hLast : db.order? orderId = some last)
    (hPayment : last.providerPaymentId = some paymentId) {event : ProviderEvent}
    (hStored : event ∈ (db.eventsOf paymentId).map EventRow.payload) :
    last.Matches event ∧ ∃ source ∈ attempts.map Attempt.snapshot,
      source.Justifies checkoutId order.quotedAmountMinor event.type := by
  obtain ⟨row, hRow, rfl⟩ := List.mem_map.mp hStored
  obtain ⟨hMember, hOwn⟩ := List.mem_filter.mp hRow
  obtain ⟨later, hLater, regular, keeps⟩ := tracked.continues.order wellFormed hOrder
  obtain rfl : last = later := Option.some.inj (hLast.symm.trans hLater)
  obtain ⟨hNone, -, -⟩ := tracked.bound last paymentId hLast hPayment
  rcases List.mem_append.mp (tracked.known row hMember) with hOld | hEmitted
  · obtain ⟨old, hOld, hSame⟩ := List.mem_map.mp hOld
    have hListed : old ∈ start.eventsOf paymentId := by
      refine List.mem_filter.mpr ⟨hOld, ?_⟩
      change decide (old.payload.paymentId = paymentId) = true
      rw [hSame]
      exact hOwn
    rw [hNone] at hListed
    cases hListed
  · obtain ⟨attempt, hAttempt, hEvent⟩ := List.mem_flatMap.mp hEmitted
    obtain ⟨hFact, hAmount, hCurrency⟩ := Attempt.events_justified hOrder hCheckout hEvent
    exact ⟨⟨hAmount.trans keeps.quotedAmountMinor.symm, hCurrency.trans regular.currency.symm⟩,
      attempt.snapshot, List.mem_map_of_mem hAttempt, hFact⟩

/-- An event that was taken in is stored itself, where digests tell the known
events apart. -/
theorem Emission.Taken.stored {db : Commerce} {terms : Terms} {emission : Emission}
    {known : List ProviderEvent} (taken : emission.Taken p terms db)
    (wellFormed : Commerce.WellFormed p db)
    (hKnown : ∀ row ∈ db.events.rows, row.payload ∈ known) (hEvent : emission.event p terms ∈ known)
    (hDistinct : ∀ first ∈ known, ∀ second ∈ known,
      (p.sha256 first.payload).hexdigest = (p.sha256 second.payload).hexdigest → first = second) :
    emission.event p terms ∈ (db.eventsOf terms.paymentId).map EventRow.payload := by
  obtain ⟨row, hRow, hDigest⟩ := taken.2
  obtain ⟨hMember, -⟩ := Commerce.event?_eq_some.mp hRow
  rw [wellFormed.event_digests row hMember] at hDigest
  have hSame := hDistinct _ (hKnown row hMember) _ hEvent hDigest
  rw [← hSame]
  refine List.mem_map_of_mem (List.mem_filter.mpr ⟨hMember, ?_⟩)
  change decide (row.payload.paymentId = terms.paymentId) = true
  rw [hSame]
  exact decide_eq_true rfl

/-- Every emission of a settlement is reported, and covers its types. -/
theorem Settlement.emissions_reported {settlement : Settlement} {amount currentTime : Int}
    {availableAt : String} {readings : Readings}
    (hAvailable : settlement.availableTime p currentTime = .ok availableAt) :
    settlement.reported p amount currentTime readings =
      settlement.emissions p amount availableAt readings := by
  rw [Settlement.reported, hAvailable, Settlement.emissions]

theorem Settlement.emission_of_type (p : Platform) {settlement : Settlement} {amount : Int}
    (availableAt : String) (readings : Readings) {type : EventType}
    (hType : type = .captured ∨ (type = .available ∧ settlement.balanceStatus = .available) ∨
      type ∈ settlement.clocked amount) :
    ∃ emission ∈ settlement.emissions p amount availableAt readings, emission.type = type := by
  rcases hType with rfl | ⟨rfl, hStatus⟩ | hClocked
  · exact ⟨settlement.captured, List.mem_cons_self, rfl⟩
  · refine ⟨⟨.available, settlement.balanceId, 0, availableAt⟩, ?_, rfl⟩
    apply List.mem_cons_of_mem
    apply List.mem_append_left
    rw [if_pos hStatus]
    exact List.mem_singleton_self _
  · exact ⟨_, settlement.clockedEmission_mem readings hClocked, rfl⟩

theorem Agreement.not_pending {amount : Nat} {earlier : List Snapshot} {state : String}
    {status : PaymentStatus} (agreement : Agreement checkoutId amount earlier state status) :
    status ≠ .pending := by
  rintro rfl
  rcases agreement with hAgree | ⟨hStatus, -⟩ | ⟨-, hStatus, -⟩
  · unfold agreeingStatus at hAgree
    split_ifs at hAgree <;> simp at hAgree
  · cases hStatus
  · cases hStatus

/-- Only a settled course derives a state that stands for a payment status. -/
theorem Course.settled_of_state {snapshot : Snapshot} {sourceEventId : Option String}
    {currentTime : Int} {readings : Readings} {store next : Store} {result : Reconciled}
    (course : Course p adapter snapshot orderId sourceEventId currentTime readings store result next)
    (hState : (agreeingStatus result.state).isSome) :
    ∃ opened paymentId view after settlement,
      Reached p adapter snapshot orderId readings store.commerce after opened paymentId view ∧
      examinePayment p adapter snapshot after.environment orderId view paymentId =
        .ok (.settled settlement) ∧
      (settle p readings currentTime sourceEventId opened paymentId view settlement).Returns
        { store with commerce := after } result next := by
  cases course with
  | absent hOpened hAbsent =>
      unfold absentState at hState
      split at hState <;> simp [agreeingStatus] at hState
  | pending reached hExamined => simp [agreeingStatus] at hState
  | failed reached hExamined hEmitted => simp [agreeingStatus] at hState
  | settled reached hExamined hSettled => exact ⟨_, _, _, _, _, reached, hExamined, hSettled⟩

end

/-- Whenever a reconciliation in a run over a monotone history of snapshots
derives a state that stands for a payment status, the ledger agrees or an
earlier snapshot had ended it; the whole quote is collected unless it failed. -/
theorem adapter_ledger_agreement (p : Platform) (adapter : Adapter) {start : Store}
    {orderId checkoutId : String} (reachable : Commerce.Reachable p start.commerce) {order : OrderRow}
    (hOrder : start.commerce.order? orderId = some order)
    (hCheckout : order.providerCheckoutId = some checkoutId)
    (hStatus : order.orderStatus = .paymentPending)
    (hNone : ∀ paymentId ∈ order.providerPaymentId, start.commerce.eventsOf paymentId = [])
    (earlier : List Attempt) (current : Attempt)
    (hAdvances : ((earlier ++ [current]).map Attempt.snapshot).Pairwise
      (Snapshot.Advances checkoutId order.quotedAmountMinor))
    (hDistinct : ∀ first ∈ start.commerce.events.rows.map EventRow.payload ++
        (earlier ++ [current]).flatMap (·.events p adapter start.commerce orderId),
      ∀ second ∈ start.commerce.events.rows.map EventRow.payload ++
        (earlier ++ [current]).flatMap (·.events p adapter start.commerce orderId),
      (p.sha256 first.payload).hexdigest = (p.sha256 second.payload).hexdigest → first = second)
    {result : Reconciled} {next : Store}
    (hReturns : (current.visit.reconcile p adapter current.snapshot orderId).Returns
      (Runs.run (fun store attempt => Attempt.after attempt p adapter orderId store) start earlier)
      result next)
    (hState : (agreeingStatus result.state).isSome) :
    Agreement checkoutId order.quotedAmountMinor (earlier.map Attempt.snapshot) result.state
        result.order.paymentStatus ∧
      (result.order.paymentStatus ≠ .failed →
        result.order.collectedAmountMinor = order.quotedAmountMinor) := by
  have wellFormed := reachable.wellFormed
  have hPending := (wellFormed.order_regular (Commerce.order?_eq_some.mp hOrder).1).pending.mpr
    (Or.inr hStatus)
  have attached : Attached p start.commerce orderId checkoutId := ⟨wellFormed, order, hOrder, hCheckout⟩
  have tracked := (Tracked.opening wellFormed hOrder hPending hNone).run adapter attached earlier
  rw [List.nil_append] at tracked
  generalize Runs.run (fun store attempt => Attempt.after attempt p adapter orderId store) start
    earlier = before at hReturns tracked
  have trackedNext := tracked.attempt adapter attached current
  rw [Attempt.after, hReturns] at trackedNext
  -- The events that are known at the end are those of the start and of all attempts.
  have hAll : earlier.flatMap (·.events p adapter start.commerce orderId) ++
      current.events p adapter start.commerce orderId =
        (earlier ++ [current]).flatMap (·.events p adapter start.commerce orderId) := by
    rw [List.flatMap_append, List.flatMap_singleton]
  rw [hAll] at trackedNext
  obtain ⟨-, -, course⟩ := Visit.reconcile_returns.mp hReturns
  obtain ⟨opened, paymentId, view, after, settlement, reached, hExamined, hSettled⟩ :=
    course.settled_of_state hState
  obtain ⟨hSession, hEnvironment, now, hNow, showsNow, keepsNow⟩ :=
    reached.of_start wellFormed tracked.continues hOrder hCheckout tracked.wellFormed
  have reads := examinePayment_reads reached.paymentId? hExamined
  have hReported := Attempt.events_of_reached wellFormed tracked.continues hOrder hCheckout
    tracked.wellFormed reached hExamined
  obtain ⟨bound, shown⟩ := reached.terms tracked.wellFormed
  obtain ⟨availableAt, later, done, sessionId, hAvailable, hEmitted, -, rfl, rfl⟩ :=
    settle_returns.mp hSettled
  obtain ⟨progress, taken⟩ := emitAll_taken bound shown (settlement.emissions_fee reads.fee) hEmitted
  obtain ⟨last, hLast, shows⟩ := progress.shown
  obtain ⟨hLastStored, hLastBound⟩ := Commerce.orderByPayment?_eq_some.mp hLast
  obtain ⟨found, hFound, hFoundId, -⟩ := progress.bound.order
  obtain rfl : last = found := Option.some.inj (hLast.symm.trans hFound)
  have hLastById : done.commerce.order? orderId = some last :=
    Commerce.order?_eq_some.mpr ⟨hLastStored, hFoundId⟩
  obtain ⟨kept, hKept, regular, keeps⟩ := trackedNext.continues.order wellFormed hOrder
  obtain rfl : last = kept := Option.some.inj (hLastById.symm.trans hKept)
  have hAmount : view.quotedAmountMinor = last.quotedAmountMinor := by
    rw [showsNow.quotedAmountMinor, keepsNow.quotedAmountMinor, keeps.quotedAmountMinor]
  have hQuoted := keeps.quotedAmountMinor
  obtain ⟨-, posted, hStuck⟩ := trackedNext.bound last paymentId hLastById hLastBound
  have hJustified := fun event (hEvent : event ∈ (done.commerce.eventsOf paymentId).map
    EventRow.payload) => trackedNext.stored_justified wellFormed hOrder hCheckout hLastById hLastBound
      hEvent
  have stuck : last.Stuck (done.commerce.eventsOf paymentId) := by
    intro row hRow hWaiting
    obtain ⟨hMember, hOwn⟩ := List.mem_filter.mp hRow
    exact (Commerce.stuck_of_saturated hLast (hStuck row
      (Commerce.mem_pendingEvents.mpr ⟨hMember, of_decide_eq_true hOwn, hWaiting⟩))).2.2
  have hStored : ∀ type, type = .captured ∨ (type = .available ∧ settlement.balanceStatus = .available) ∨
      type ∈ settlement.clocked view.quotedAmountMinor →
      ∃ event ∈ (done.commerce.eventsOf paymentId).map EventRow.payload, event.type = type := by
    intro type hType
    obtain ⟨emission, hEmission, rfl⟩ :=
      Settlement.emission_of_type p availableAt current.visit.readings hType
    refine ⟨_, (taken emission hEmission).stored progress.bound.wellFormed trackedNext.known ?_ hDistinct,
      rfl⟩
    apply List.mem_append_right
    rw [← hAll, hReported, Examination.reported, Settlement.emissions_reported hAvailable]
    exact List.mem_append_right _ (List.mem_map_of_mem hEmission)
  rw [List.map_append, List.pairwise_append] at hAdvances
  rw [hSession] at reads
  rw [hAmount] at reads hStored
  have agreement := agreement_of_posted (earlier.map Attempt.snapshot) posted stuck regular
    (by rw [hLastBound]; rfl) (fun event hEvent => (hJustified event hEvent).1)
    (fun event hEvent => by
      rw [hQuoted]
      have hSource := (hJustified event hEvent).2
      rw [List.map_append] at hSource
      exact hSource)
    (fun source hSource => by
      rw [hQuoted]
      exact hAdvances.2.2 source hSource current.snapshot (by simp)) reads hStored
  rw [← hAmount] at agreement
  rw [shows.paymentStatus, shows.collectedAmountMinor, ← hQuoted]
  refine ⟨?_, fun hNotFailed => ?_⟩
  · rw [← hAmount]
    exact agreement
  · obtain ⟨account, -, rfl, balanced⟩ := progress.bound.wellFormed.balanced hLastStored
    rw [balanced.collected, if_pos ⟨agreement.not_pending, hNotFailed⟩]

namespace Sample

def declined : Attempt := ⟨snapshot "requires_payment_method" 0 false, visit 3⟩

def paid : Attempt := ⟨snapshot "succeeded" 0 false, visit 4⟩

def attachedOrder : OrderRow :=
  { VouchSpec.Sample.order .stripe with
    providerCheckoutId := some checkoutId, orderStatus := .paymentPending }

/-- A payment that succeeds after it was declined finds the order failed. -/
theorem paid_after_declined :
    ∃ result next,
      (paid.visit.reconcile .standard adapter paid.snapshot VouchSpec.Sample.orderId).Returns
        (declined.after .standard adapter VouchSpec.Sample.orderId attached) result next ∧
      result.state = "pending" ∧ result.order.paymentStatus = .failed ∧
      result.order.collectedAmountMinor = 0 ∧ result.order.quotedAmountMinor = 4900 := by
  have hRun : (match paid.visit.reconcile .standard adapter paid.snapshot VouchSpec.Sample.orderId
        (declined.after .standard adapter VouchSpec.Sample.orderId attached) with
      | (.ok result, _) => decide (result.state = "pending" ∧ result.order.paymentStatus = .failed ∧
          result.order.collectedAmountMinor = 0 ∧ result.order.quotedAmountMinor = 4900)
      | (.error _, _) => false) = true := by decide +kernel
  split at hRun
  · next result next hReturns => exact ⟨result, next, hReturns, of_decide_eq_true hRun⟩
  · cases hRun

/-- The declined snapshot shows no fact that could be taken back. -/
theorem declined_advances :
    Snapshot.Advances checkoutId 4900 declined.snapshot paid.snapshot := by
  have hNone : ¬declined.snapshot.Succeeded checkoutId ∧ ¬declined.snapshot.Available checkoutId ∧
      ¬declined.snapshot.Refunded checkoutId 4900 ∧ ¬declined.snapshot.Disputed checkoutId := by
    decide +kernel
  exact ⟨fun h => absurd h hNone.1, fun h => absurd h hNone.2.1, fun h => absurd h hNone.2.2.1,
    fun h => absurd h hNone.2.2.2⟩

end Sample

/-- The history is monotone, the state says that the payment is captured, and
the ledger says that it failed. -/
theorem disagreement_after_declined :
    Commerce.Reachable .standard Sample.attached.commerce ∧
      ([Sample.declined, Sample.paid].map Attempt.snapshot).Pairwise
        (Snapshot.Advances Sample.checkoutId 4900) ∧
      ∃ result next,
        (Sample.paid.visit.reconcile .standard Sample.adapter Sample.paid.snapshot
          VouchSpec.Sample.orderId).Returns
          (Sample.declined.after .standard Sample.adapter VouchSpec.Sample.orderId Sample.attached)
            result next ∧
        result.state = "pending" ∧ result.order.paymentStatus ≠ .captured ∧
        result.order.collectedAmountMinor ≠ result.order.quotedAmountMinor := by
  obtain ⟨result, next, hReturns, hState, hStatus, hCollected, hQuoted⟩ := Sample.paid_after_declined
  refine ⟨Sample.attached_reachable, ?_, result, next, hReturns, hState, ?_, ?_⟩
  · exact List.pairwise_pair.mpr Sample.declined_advances
  · rw [hStatus]
    decide
  · rw [hCollected, hQuoted]
    decide

/-- There the agreement is the failure that the declined payment had caused. -/
theorem adapter_ledger_agreement_declined :
    ∃ result next,
      (Sample.paid.visit.reconcile .standard Sample.adapter Sample.paid.snapshot
        VouchSpec.Sample.orderId).Returns
        (Runs.run (fun store attempt => Attempt.after attempt .standard Sample.adapter
          VouchSpec.Sample.orderId store) Sample.attached [Sample.declined]) result next ∧
      Agreement Sample.checkoutId 4900 [Sample.declined.snapshot] result.state
        result.order.paymentStatus := by
  have hStart : Sample.attached.commerce.order? VouchSpec.Sample.orderId = some Sample.attachedOrder ∧
      ∀ first ∈ Sample.attached.commerce.events.rows.map EventRow.payload ++
        [Sample.declined, Sample.paid].flatMap
          (·.events .standard Sample.adapter Sample.attached.commerce VouchSpec.Sample.orderId),
      ∀ second ∈ Sample.attached.commerce.events.rows.map EventRow.payload ++
        [Sample.declined, Sample.paid].flatMap
          (·.events .standard Sample.adapter Sample.attached.commerce VouchSpec.Sample.orderId),
      (Platform.standard.sha256 first.payload).hexdigest =
        (Platform.standard.sha256 second.payload).hexdigest → first = second := by decide +kernel
  obtain ⟨hOrder, hDistinct⟩ := hStart
  obtain ⟨result, next, hReturns, hState, -⟩ := Sample.paid_after_declined
  exact ⟨result, next, hReturns, (adapter_ledger_agreement .standard Sample.adapter
    Sample.attached_reachable hOrder rfl rfl (by simp [Sample.attachedOrder, VouchSpec.Sample.order])
    [Sample.declined] Sample.paid (List.pairwise_pair.mpr Sample.declined_advances) hDistinct hReturns
    (by rw [hState]; rfl)).1⟩

end Stripe

end VouchSpec
