import VouchSpec.Commerce.Ingestion
import VouchSpec.Commerce.Replay
import VouchSpec.Commerce.Standard

/-! Confluence of event ingestion. Where the events of a payment settle is a
function of the set of their types, so their order of arrival does not matter. -/

namespace VouchSpec

/-- The event types that make no payment fail or become disputed. -/
def EventType.Regular (type : EventType) : Prop := type ≠ .failed ∧ type ≠ .disputed

/-- The status in which events of these types settle. -/
def settledStatus (types : List EventType) : PaymentStatus :=
  if .captured ∉ types then .pending
  else if .refundPending ∈ types then
    if .refunded ∈ types then .refunded else .refundPending
  else if .available ∈ types then .available
  else .captured

theorem settledStatus_congr {left right : List EventType} (hSame : ∀ type, type ∈ left ↔ type ∈ right) :
    settledStatus left = settledStatus right := by
  simp only [settledStatus, hSame]

/-- The types of the events of the quoted amount. -/
def OrderRow.matchingTypes (order : OrderRow) (events : List ProviderEvent) : List EventType :=
  (events.filter fun event => order.Matches event).map ProviderEvent.type

theorem OrderRow.mem_matchingTypes {order : OrderRow} {events : List ProviderEvent} {type : EventType} :
    type ∈ order.matchingTypes events ↔ ∃ event ∈ events, order.Matches event ∧ event.type = type := by
  simp [matchingTypes, and_assoc]

/-- An unfulfilled order whose payment neither failed nor is disputed. -/
def OrderRow.Tied (order : OrderRow) : Prop :=
  (order.paymentStatus = .pending ∧ order.orderStatus = .paymentPending) ∨
    (order.paymentStatus ∈ [.captured, .available, .refundPending, .refunded] ∧
      order.orderStatus = .queued)

namespace OrderRow

theorem Tied.advance {order : OrderRow} {event : ProviderEvent} (tied : order.Tied)
    (hType : event.type.Regular) (hAdmits : order.Admits event) : (order.advance event).Tied := by
  obtain ⟨hPayment, hOrder⟩ := advance_status event order
  have hEdge := hAdmits.1
  unfold Tied
  rw [hPayment, hOrder]
  cases hKind : event.type with
  | captured => exact Or.inr ⟨by decide, rfl⟩
  | failed => exact absurd hKind hType.1
  | disputed => exact absurd hKind hType.2
  | _ =>
      rw [hKind] at hEdge
      rcases tied with ⟨hPending, -⟩ | ⟨-, hQueued⟩
      · rw [hPending] at hEdge
        simp [EventType.target, paymentTransitions] at hEdge
      · exact Or.inr ⟨by decide, hQueued⟩

/-- Posted events that are consumed or stuck have settled. -/
theorem Posted.settled {order : OrderRow} {rows : List EventRow} (posted : order.Posted rows)
    (tied : order.Tied)
    (hStuck : ∀ row ∈ rows, row.status = .pending → order.Matches row.payload →
      ¬order.Admits row.payload) :
    order.paymentStatus = settledStatus (order.matchingTypes (rows.map EventRow.payload)) := by
  -- A stored type that could still be applied has already been passed.
  have hPassed : ∀ type ∈ order.matchingTypes (rows.map EventRow.payload),
      type.target ∈ paymentTransitions order.paymentStatus →
        (type.target = .captured → order.orderStatus = .paymentPending) →
          order.paymentStatus ∈ type.target.leads := by
    intro type hType hEdge hOrder
    obtain ⟨event, hEvent, hMatches, rfl⟩ := mem_matchingTypes.mp hType
    obtain ⟨row, hRow, rfl⟩ := List.mem_map.mp hEvent
    by_cases hPending : row.status = .pending
    · exact absurd ⟨hEdge, hOrder⟩ (hStuck row hRow hPending hMatches)
    · exact posted.consumed row hRow hMatches hPending
  have hCaptured : order.paymentStatus ≠ .pending → order.paymentStatus ≠ .failed →
      .captured ∈ order.matchingTypes (rows.map EventRow.payload) := by
    intro hPending hFailed
    obtain ⟨event, hEvent, hMatches, hType, -⟩ := posted.captured hPending hFailed
    exact mem_matchingTypes.mpr ⟨event, hEvent, hMatches, hType⟩
  have hCurrent : ∀ type : EventType, order.paymentStatus = type.target →
      order.paymentStatus ≠ .pending → type ∈ order.matchingTypes (rows.map EventRow.payload) := by
    intro type hTarget hPending
    obtain ⟨event, hEvent, hMatches, hStatus⟩ := posted.current hPending
    exact mem_matchingTypes.mpr ⟨event, hEvent, hMatches,
      EventType.target_injective (hStatus.trans hTarget)⟩
  rcases tied with ⟨hPending, hOrder⟩ | ⟨hStatus, -⟩
  · rw [hPending] at hPassed ⊢
    have hNone : .captured ∉ order.matchingTypes (rows.map EventRow.payload) := by
      intro hMember
      have hLeads := hPassed .captured hMember (by decide) (fun _ => hOrder)
      simp [EventType.target, PaymentStatus.leads] at hLeads
    simp [settledStatus, hNone]
  · simp only [List.mem_cons, List.not_mem_nil, or_false] at hStatus
    rcases hStatus with hStatus | hStatus | hStatus | hStatus
    all_goals
      have hFirst := hCaptured (by simp [hStatus]) (by simp [hStatus])
      rw [hStatus] at hPassed hCurrent ⊢
    · have hNoRefund : .refundPending ∉ order.matchingTypes (rows.map EventRow.payload) := by
        intro hMember
        have hLeads := hPassed .refundPending hMember (by decide) (by simp [EventType.target])
        simp [EventType.target, PaymentStatus.leads] at hLeads
      have hNotAvailable : .available ∉ order.matchingTypes (rows.map EventRow.payload) := by
        intro hMember
        have hLeads := hPassed .available hMember (by decide) (by simp [EventType.target])
        simp [EventType.target, PaymentStatus.leads] at hLeads
      simp [settledStatus, hFirst, hNoRefund, hNotAvailable]
    · have hNoRefund : .refundPending ∉ order.matchingTypes (rows.map EventRow.payload) := by
        intro hMember
        have hLeads := hPassed .refundPending hMember (by decide) (by simp [EventType.target])
        simp [EventType.target, PaymentStatus.leads] at hLeads
      have hAvailable := hCurrent .available rfl (by simp)
      simp [settledStatus, hFirst, hNoRefund, hAvailable]
    · have hNotRefunded : .refunded ∉ order.matchingTypes (rows.map EventRow.payload) := by
        intro hMember
        have hLeads := hPassed .refunded hMember (by decide) (by simp [EventType.target])
        simp [EventType.target, PaymentStatus.leads] at hLeads
      have hRefund := hCurrent .refundPending rfl (by simp)
      simp [settledStatus, hFirst, hRefund, hNotRefunded]
    · obtain ⟨event, hEvent, hMatches, hType⟩ := posted.refunding hStatus
      have hRefund : .refundPending ∈ order.matchingTypes (rows.map EventRow.payload) :=
        mem_matchingTypes.mpr ⟨event, hEvent, hMatches, hType⟩
      have hRefunded := hCurrent .refunded rfl (by simp)
      simp [settledStatus, hFirst, hRefund, hRefunded]

end OrderRow

namespace Commerce

variable {p : Platform} {db after : Commerce}

/-- Whether the ingestion of a valid event would store it. -/
def Stores (p : Platform) (db : Commerce) (order : OrderRow) (receivedAt : ProviderEvent → Option String)
    (utcNow : ProviderEvent → Int) (event : ProviderEvent) : Prop :=
  (parseTimestamp p (orElseNow p (receivedAt event) (utcNow event))).toBool ∧
    db.event? event.eventId = none ∧ order.provider = event.provider

instance (p : Platform) (db : Commerce) (order : OrderRow) (receivedAt : ProviderEvent → Option String)
    (utcNow : ProviderEvent → Int) (event : ProviderEvent) :
    Decidable (Stores p db order receivedAt utcNow event) := inferInstanceAs (Decidable (_ ∧ _ ∧ _))

/-- The state in the middle of a run that ingests events of one payment. -/
structure Underway (p : Platform) (start db : Commerce) (paymentId : String) (first : OrderRow)
    (stored : List ProviderEvent) (order : OrderRow) : Prop where
  wellFormed : WellFormed p db
  continues : Continues start db
  bound : db.orderByPayment? paymentId = some order
  keeps : first.Keeps order
  posted : order.Posted (db.eventsOf paymentId)
  payloads : db.events.rows.map EventRow.payload = start.events.rows.map EventRow.payload ++ stored
  costRecords : db.costRecords = start.costRecords
  stuck : ∀ row ∈ db.pendingEvents paymentId,
    db.applyEvent paymentId row.payload = .ok (db, false)
  tied : order.Tied

theorem event?_isSome {eventId : String} :
    (db.event? eventId).isSome ↔ ∃ event ∈ db.events.rows.map EventRow.payload, event.eventId = eventId := by
  constructor
  · intro hSome
    obtain ⟨row, hRow⟩ := Option.isSome_iff_exists.mp hSome
    obtain ⟨hStored, hId⟩ := event?_eq_some.mp hRow
    exact ⟨row.payload, List.mem_map_of_mem hStored, hId⟩
  · rintro ⟨event, hEvent, rfl⟩
    obtain ⟨row, hRow, rfl⟩ := List.mem_map.mp hEvent
    exact Option.isSome_iff_exists.mpr ⟨row, event?_eq_some.mpr ⟨hRow, rfl⟩⟩

/-- One more ingestion, of an event that the run has not seen. -/
theorem Underway.ingest {start : Commerce} {paymentId : String} {first order : OrderRow}
    {stored : List ProviderEvent} (underway : Underway p start db paymentId first stored order)
    {event : ProviderEvent} (receivedAt : ProviderEvent → Option String)
    (utcNow : ProviderEvent → Int) (hNew : ∀ other ∈ stored, other.eventId ≠ event.eventId)
    (hValid : start.validateEvent p event.toJson = .ok event) (hPayment : event.paymentId = paymentId)
    (hType : event.type.Regular) (hStored : ∀ other ∈ stored, other.type.Regular)
    (hNone : start.eventsOf paymentId = []) :
    ∃ later, Underway p start (db.step p (.ingestProviderEvent event.toJson (receivedAt event)
        (utcNow event))) paymentId first
      (if Stores p start first receivedAt utcNow event then stored ++ [event] else stored) later := by
  subst hPayment
  have hValidHere : db.validateEvent p event.toJson = .ok event := by
    rw [validateEvent_congr underway.continues.environment, hValid]
  have hKnown : (db.event? event.eventId).isSome ↔ (start.event? event.eventId).isSome := by
    rw [event?_isSome, event?_isSome, underway.payloads]
    constructor
    · rintro ⟨other, hOther, hId⟩
      rcases List.mem_append.mp hOther with hOld | hAdded
      · exact ⟨other, hOld, hId⟩
      · exact absurd hId (hNew other hAdded)
    · rintro ⟨other, hOther, hId⟩
      exact ⟨other, List.mem_append_left _ hOther, hId⟩
  by_cases hStores : Stores p start first receivedAt utcNow event
  · -- The event is stored and reconciled.
    obtain ⟨hReceived, hFresh, hProvider⟩ := hStores
    have hFreshHere : db.event? event.eventId = none := by
      rw [← Option.not_isSome_iff_eq_none, hKnown, hFresh]
      simp
    have hOwn : ∀ other ∈ db.events.rows.map EventRow.payload, other.paymentId = event.paymentId →
        other ∈ stored := by
      intro other hOther hSame
      rw [underway.payloads] at hOther
      rcases List.mem_append.mp hOther with hOld | hAdded
      · obtain ⟨row, hRow, rfl⟩ := List.mem_map.mp hOld
        have hMember : row ∈ start.eventsOf event.paymentId :=
          List.mem_filter.mpr ⟨hRow, decide_eq_true hSame⟩
        rw [hNone] at hMember
        cases hMember
      · exact hAdded
    obtain ⟨instant, hInstant⟩ : ∃ instant,
        parseTimestamp p (orElseNow p (receivedAt event) (utcNow event)) = .ok instant := by
      cases hParsed : parseTimestamp p (orElseNow p (receivedAt event) (utcNow event)) with
      | ok instant => exact ⟨instant, rfl⟩
      | error raised =>
          rw [hParsed] at hReceived
          cases hReceived
    obtain ⟨after, result, later, hIngested, ingested, hTied⟩ :=
      underway.wellFormed.ingestEvent_new (orElseNow p (receivedAt event) (utcNow event)) hFreshHere
        underway.bound (underway.keeps.provider.trans hProvider) underway.posted OrderRow.Tied
        underway.tied (by
          intro current other hOther hSame hAdmits hCurrent
          apply hCurrent.advance _ hAdmits
          rcases hOther with rfl | hOther
          · exact hType
          · exact hStored other (hOwn other hOther hSame))
    have hStep : db.step p (.ingestProviderEvent event.toJson (receivedAt event) (utcNow event)) =
        after := by
      have hCall := ingestProviderEvent_eq_ok.mpr ⟨event, instant, hValidHere, hInstant, hIngested⟩
      rw [step_ingest, hCall]
    rw [hStep, if_pos ⟨hReceived, hFresh, hProvider⟩]
    obtain ⟨hAfter, continues⟩ :=
      (ingestEvent_moves hIngested).wellFormed_continues underway.wellFormed
    obtain ⟨hOrderStored, hBound⟩ := orderByPayment?_eq_some.mp underway.bound
    obtain ⟨last, hLast, hStill, keeps⟩ :=
      continues.orderByPayment underway.wellFormed hOrderStored hBound
    have hSame : last = later := Option.some.inj
      ((orderByPayment?_eq_some.mpr ⟨hLast, hStill⟩).symm.trans ingested.bound)
    exact ⟨later, {
      wellFormed := hAfter
      continues := underway.continues.trans continues
      bound := ingested.bound
      keeps := underway.keeps.trans (hSame ▸ keeps)
      posted := ingested.posted
      payloads := by rw [ingested.payloads, underway.payloads, List.append_assoc]
      costRecords := ingested.costRecords.trans underway.costRecords
      stuck := ingested.stuck
      tied := hTied }⟩
  · -- The call raises, or finds the identifier stored: nothing changes.
    rw [if_neg hStores]
    have hStep : db.step p (.ingestProviderEvent event.toJson (receivedAt event) (utcNow event)) =
        db := by
      rw [step_ingest]
      cases hCall : db.ingestProviderEvent p event.toJson (receivedAt event) (utcNow event) with
      | error raised => rfl
      | ok result =>
          obtain ⟨found, instant, hFound, hInstant, hIngested⟩ := ingestProviderEvent_eq_ok.mp hCall
          obtain rfl : event = found := Except.ok.inj (hValidHere.symm.trans hFound)
          rcases ingestEvent_eq_ok.mp hIngested with
            ⟨_, _, -, -, -, hSame, -⟩ | ⟨other, events, _, hFresh, hOther, hProvider, -⟩
          · exact hSame
          · refine absurd ⟨?_, ?_, ?_⟩ hStores
            · rw [hInstant]
              rfl
            · rw [← Option.not_isSome_iff_eq_none, ← hKnown, hFresh]
              simp
            · obtain rfl : order = other := Option.some.inj (underway.bound.symm.trans hOther)
              exact underway.keeps.provider.symm.trans hProvider
    rw [hStep]
    exact ⟨order, underway⟩

/-- The calls that ingest some events. -/
def ingestions (events : List ProviderEvent) (receivedAt : ProviderEvent → Option String)
    (utcNow : ProviderEvent → Int) : List Call :=
  events.map fun event => .ingestProviderEvent event.toJson (receivedAt event) (utcNow event)

/-- A run stores the events that it can store, in their order. -/
theorem Underway.run {start : Commerce} {paymentId : String} {first : OrderRow}
    (receivedAt : ProviderEvent → Option String) (utcNow : ProviderEvent → Int)
    (hNone : start.eventsOf paymentId = []) {events : List ProviderEvent}
    (hIds : (events.map ProviderEvent.eventId).Nodup)
    (hValid : ∀ event ∈ events, start.validateEvent p event.toJson = .ok event)
    (hPayment : ∀ event ∈ events, event.paymentId = paymentId)
    (hTypes : ∀ event ∈ events, event.type.Regular) {stored : List ProviderEvent}
    (hStored : ∀ other ∈ stored, other.type.Regular)
    (hNew : ∀ event ∈ events, ∀ other ∈ stored, other.eventId ≠ event.eventId) {order : OrderRow}
    (underway : Underway p start db paymentId first stored order) :
    ∃ later, Underway p start (Runs.run (step p) db (ingestions events receivedAt utcNow)) paymentId
      first (stored ++ events.filter (Stores p start first receivedAt utcNow)) later := by
  induction events generalizing db stored order with
  | nil =>
      refine ⟨order, ?_⟩
      rw [List.filter_nil, List.append_nil]
      exact underway
  | cons event rest ih =>
      obtain ⟨hHead, hTail⟩ := List.nodup_cons.mp hIds
      obtain ⟨later, hLater⟩ := underway.ingest receivedAt utcNow (hNew event List.mem_cons_self)
        (hValid event List.mem_cons_self) (hPayment event List.mem_cons_self)
        (hTypes event List.mem_cons_self) hStored hNone
      have hDifferent : ∀ other ∈ rest, event.eventId ≠ other.eventId := by
        intro other hOther hSame
        exact hHead (hSame ▸ List.mem_map_of_mem hOther)
      have hRest : ∀ {stored : List ProviderEvent}, (∀ other ∈ stored, other.type.Regular) →
          (∀ event ∈ rest, ∀ other ∈ stored, other.eventId ≠ event.eventId) →
          Underway p start (db.step p (.ingestProviderEvent event.toJson (receivedAt event)
            (utcNow event))) paymentId first stored later → _ :=
        fun hRegular hFresh => ih hTail (fun other h => hValid other (List.mem_cons_of_mem _ h))
          (fun other h => hPayment other (List.mem_cons_of_mem _ h))
          (fun other h => hTypes other (List.mem_cons_of_mem _ h)) hRegular hFresh
      by_cases hStores : Stores p start first receivedAt utcNow event
      · rw [if_pos hStores] at hLater
        obtain ⟨last, hLast⟩ := hRest
          (by
            intro other hOther
            rcases List.mem_append.mp hOther with hOld | hAdded
            · exact hStored other hOld
            · rw [List.mem_singleton.mp hAdded]
              exact hTypes event List.mem_cons_self)
          (by
            intro next hNext other hOther
            rcases List.mem_append.mp hOther with hOld | hAdded
            · exact hNew next (List.mem_cons_of_mem _ hNext) other hOld
            · rw [List.mem_singleton.mp hAdded]
              exact hDifferent next hNext) hLater
        refine ⟨last, ?_⟩
        rw [List.filter_cons_of_pos (by simpa using hStores), List.append_cons]
        exact hLast
      · rw [if_neg hStores] at hLater
        obtain ⟨last, hLast⟩ := hRest hStored
          (fun next hNext => hNew next (List.mem_cons_of_mem _ hNext)) hLater
        refine ⟨last, ?_⟩
        rw [List.filter_cons_of_neg (by simpa using hStores)]
        exact hLast

/-- What the events of a payment amount to for its order. -/
structure Outcome where
  paymentStatus : PaymentStatus
  orderStatus : OrderStatus
  collectedAmountMinor : Nat
  processingFeeMinor : Nat
  refundedAmountMinor : Nat
  contribution : Int
deriving DecidableEq

def outcome? (db : Commerce) (orderId : String) : Option Outcome :=
  (db.order? orderId).map fun order =>
    { paymentStatus := order.paymentStatus, orderStatus := order.orderStatus
      collectedAmountMinor := order.collectedAmountMinor
      processingFeeMinor := order.processingFeeMinor
      refundedAmountMinor := order.refundedAmountMinor
      contribution := contribution (db.entriesOf orderId) }

/-- The outcome that settled events have. -/
def settledOutcome (order : OrderRow) (events : List ProviderEvent) (fee directCosts : Nat) : Outcome :=
  let status := settledStatus (order.matchingTypes events)
  let collected := if status = .pending then 0 else order.quotedAmountMinor
  let paidFee := if status = .pending then 0 else fee
  let refunded := if status = .refunded then order.quotedAmountMinor else 0
  { paymentStatus := status
    orderStatus := if status = .pending then .paymentPending else .queued
    collectedAmountMinor := collected, processingFeeMinor := paidFee
    refundedAmountMinor := refunded
    contribution := collected - paidFee - refunded - directCosts }

/-- After a run, the outcome is the one in which its stored events settle. -/
theorem Underway.outcome {start : Commerce} {paymentId : String} {first order : OrderRow}
    {stored : List ProviderEvent} (underway : Underway p start db paymentId first stored order)
    (hNone : start.eventsOf paymentId = []) (hPayment : ∀ event ∈ stored, event.paymentId = paymentId)
    {fee : Nat} (hFee : ∀ event ∈ stored, first.Matches event → event.type = .captured →
      event.feeMinor = fee) :
    db.outcome? first.orderId =
      some (settledOutcome first stored fee (start.directCosts first.orderId)) := by
  obtain ⟨hOrder, -⟩ := orderByPayment?_eq_some.mp underway.bound
  have hMatches : ∀ event, order.Matches event ↔ first.Matches event := by
    intro event
    rw [OrderRow.Matches, OrderRow.Matches, underway.keeps.quotedAmountMinor, underway.keeps.currency]
  have hEvents : (db.eventsOf paymentId).map EventRow.payload = stored := by
    have hOwn : ∀ rows : List EventRow,
        (rows.filter fun row => row.paymentId = paymentId).map EventRow.payload =
          (rows.map EventRow.payload).filter fun event => event.paymentId = paymentId := by
      intro rows
      rw [List.filter_map]
      rfl
    have hBefore := hOwn start.events.rows
    unfold eventsOf at hNone ⊢
    rw [hNone] at hBefore
    rw [hOwn, underway.payloads, List.filter_append, ← hBefore, List.map_nil, List.nil_append]
    exact List.filter_eq_self.mpr fun event hEvent => by simp [hPayment event hEvent]
  have hStatus : order.paymentStatus = settledStatus (first.matchingTypes stored) := by
    have hSettled := underway.posted.settled underway.tied (by
      intro row hRow hPending _
      obtain ⟨hStored, hPaid⟩ := List.mem_filter.mp hRow
      have hListed : row ∈ db.pendingEvents paymentId :=
        mem_pendingEvents.mpr ⟨hStored, by simpa using hPaid, hPending⟩
      exact (stuck_of_saturated underway.bound (underway.stuck row hListed)).2.2)
    rw [hEvents] at hSettled
    rw [hSettled]
    apply settledStatus_congr
    intro type
    simp only [OrderRow.mem_matchingTypes, hMatches]
  obtain ⟨account, hAccount, rfl, balanced⟩ := underway.wellFormed.balanced hOrder
  have conserved := underway.wellFormed.conserved hOrder
  have hPaid : account.order.paymentStatus.Paid ↔ account.order.paymentStatus ≠ .pending := by
    constructor
    · exact fun h => h.1
    · intro hPending
      refine ⟨hPending, ?_⟩
      rcases underway.tied with ⟨hStill, -⟩ | ⟨hRegular, -⟩
      · exact absurd hStill hPending
      · intro hFailed
        rw [hFailed] at hRegular
        simp at hRegular
  have hCollected : account.order.collectedAmountMinor =
      if account.order.paymentStatus = .pending then 0 else first.quotedAmountMinor := by
    rw [balanced.collected, underway.keeps.quotedAmountMinor]
    by_cases hPending : account.order.paymentStatus = .pending
    · rw [if_neg (fun h => hPaid.mp h hPending), if_pos hPending]
    · rw [if_pos (hPaid.mpr hPending), if_neg hPending]
  have hPaidFee : account.order.processingFeeMinor =
      if account.order.paymentStatus = .pending then 0 else fee := by
    by_cases hPending : account.order.paymentStatus = .pending
    · rw [if_pos hPending, balanced.fee_of_unpaid fun h => hPaid.mp h hPending]
    · obtain ⟨event, hEvent, hMatch, hType, hSame⟩ :=
        underway.posted.captured hPending (hPaid.mpr hPending).2
      rw [hEvents] at hEvent
      rw [if_neg hPending, ← hSame, hFee event hEvent ((hMatches event).mp hMatch) hType]
  have hRefunded : account.order.refundedAmountMinor =
      if account.order.paymentStatus = .refunded then first.quotedAmountMinor else 0 := by
    rw [balanced.refunded, underway.keeps.quotedAmountMinor]
  have hOrderStatus : account.order.orderStatus =
      if account.order.paymentStatus = .pending then .paymentPending else .queued := by
    rcases underway.tied with ⟨hPending, hWaiting⟩ | ⟨hRegular, hQueued⟩
    · rw [if_pos hPending, hWaiting]
    · rw [if_neg (by rintro hPending; rw [hPending] at hRegular; simp at hRegular), hQueued]
  have hContribution := conserved.contribution
  have hCosts : db.directCosts account.order.orderId = start.directCosts first.orderId := by
    unfold directCosts
    rw [underway.costRecords, underway.keeps.orderId]
  have hFound : db.order? first.orderId = some account.order :=
    order?_eq_some.mpr ⟨hOrder, underway.keeps.orderId⟩
  rw [hCosts, hCollected, hPaidFee, hRefunded, underway.keeps.orderId] at hContribution
  unfold outcome? settledOutcome
  rw [hFound, Option.map_some, hContribution, hCollected, hPaidFee, hRefunded, hOrderStatus, hStatus]

/-- The run that ingests events of a payment without stored events ends with
the outcome of the events that it could store. -/
theorem outcome_of_ingestions {order : OrderRow} {paymentId : String} (wellFormed : WellFormed p db)
    (hOrder : db.orderByPayment? paymentId = some order) (hStatus : order.orderStatus = .paymentPending)
    (hNone : db.eventsOf paymentId = []) {events : List ProviderEvent}
    (hIds : (events.map ProviderEvent.eventId).Nodup)
    (hValid : ∀ event ∈ events, db.validateEvent p event.toJson = .ok event)
    (hPayment : ∀ event ∈ events, event.paymentId = paymentId)
    (hTypes : ∀ event ∈ events, event.type.Regular) {fee : Nat}
    (hFee : ∀ event ∈ events, order.Matches event → event.type = .captured → event.feeMinor = fee)
    (receivedAt : ProviderEvent → Option String) (utcNow : ProviderEvent → Int) :
    (Runs.run (step p) db (ingestions events receivedAt utcNow)).outcome? order.orderId =
      some (settledOutcome order (events.filter (Stores p db order receivedAt utcNow)) fee
        (db.directCosts order.orderId)) := by
  have hStored := (orderByPayment?_eq_some.mp hOrder).1
  have regular := wellFormed.order_regular hStored
  have hPending : order.paymentStatus = .pending := regular.pending.mpr (Or.inr hStatus)
  have hStart : Underway p db db paymentId order [] order := {
    wellFormed := wellFormed
    continues := .refl db
    bound := hOrder
    keeps := .refl order
    posted := by
      rw [hNone]
      exact OrderRow.posted_nil hPending
    payloads := (List.append_nil _).symm
    costRecords := rfl
    stuck := by
      intro row hRow
      obtain ⟨hListed, hPaid, -⟩ := mem_pendingEvents.mp hRow
      have hMember : row ∈ db.eventsOf paymentId := List.mem_filter.mpr ⟨hListed, by simp [hPaid]⟩
      rw [hNone] at hMember
      cases hMember
    tied := Or.inl ⟨hPending, hStatus⟩ }
  obtain ⟨later, hFinish⟩ := hStart.run receivedAt utcNow hNone hIds hValid hPayment hTypes
    (by simp) (by simp)
  rw [List.nil_append] at hFinish
  apply hFinish.outcome hNone
  · exact fun event hEvent => hPayment event (List.mem_filter.mp hEvent).1
  · exact fun event hEvent => hFee event (List.mem_filter.mp hEvent).1

theorem settledOutcome_congr {order : OrderRow} {left right : List ProviderEvent}
    (hSame : ∀ event, event ∈ left ↔ event ∈ right) (fee directCosts : Nat) :
    settledOutcome order left fee directCosts = settledOutcome order right fee directCosts := by
  have hStatus : settledStatus (order.matchingTypes left) = settledStatus (order.matchingTypes right) := by
    apply settledStatus_congr
    intro type
    simp only [OrderRow.mem_matchingTypes, hSame]
  unfold settledOutcome
  rw [hStatus]

/-- Whatever the order of arrival and the times of receipt, the same events
end with the same outcome. Times of receipt only matter in that ingestion
refuses a malformed one. -/
theorem ingestion_confluent (p : Platform) {db : Commerce} (reachable : Reachable p db)
    {order : OrderRow} {paymentId : String} (hOrder : db.orderByPayment? paymentId = some order)
    (hStatus : order.orderStatus = .paymentPending) (hNone : db.eventsOf paymentId = [])
    {first second : List ProviderEvent} (hPerm : first.Perm second)
    (hIds : (first.map ProviderEvent.eventId).Nodup)
    (hValid : ∀ event ∈ first, db.validateEvent p event.toJson = .ok event)
    (hPayment : ∀ event ∈ first, event.paymentId = paymentId)
    (hTypes : ∀ event ∈ first,
      event.type ∈ [EventType.captured, .available, .refundPending, .refunded])
    (hFee : ∀ left ∈ first, ∀ right ∈ first, left.type = .captured → right.type = .captured →
      left.amountMinor = order.quotedAmountMinor → right.amountMinor = order.quotedAmountMinor →
        left.feeMinor = right.feeMinor)
    (receivedFirst receivedSecond : ProviderEvent → Option String)
    (nowFirst nowSecond : ProviderEvent → Int)
    (hReceived : ∀ event ∈ first,
      (parseTimestamp p (orElseNow p (receivedFirst event) (nowFirst event))).toBool =
        (parseTimestamp p (orElseNow p (receivedSecond event) (nowSecond event))).toBool) :
    ∃ outcome,
      (Runs.run (step p) db (ingestions first receivedFirst nowFirst)).outcome? order.orderId =
        some outcome ∧
      (Runs.run (step p) db (ingestions second receivedSecond nowSecond)).outcome? order.orderId =
        some outcome := by
  have wellFormed := reachable.wellFormed
  have hRegular : ∀ event ∈ first, event.type.Regular := by
    intro event hEvent
    have hType := hTypes event hEvent
    constructor <;> intro hKind <;> rw [hKind] at hType <;> simp at hType
  obtain ⟨fee, hCommon⟩ : ∃ fee, ∀ event ∈ first, order.Matches event → event.type = .captured →
      event.feeMinor = fee := by
    by_cases hExists : ∃ event ∈ first, order.Matches event ∧ event.type = .captured
    · obtain ⟨chosen, hChosen, hMatches, hType⟩ := hExists
      exact ⟨chosen.feeMinor, fun event hEvent hMatch hKind =>
        hFee event hEvent chosen hChosen hKind hType hMatch.1 hMatches.1⟩
    · exact ⟨0, fun event hEvent hMatch hKind => absurd ⟨event, hEvent, hMatch, hKind⟩ hExists⟩
  have hFirst := outcome_of_ingestions wellFormed hOrder hStatus hNone hIds hValid hPayment hRegular
    hCommon receivedFirst nowFirst
  have hSecond := outcome_of_ingestions wellFormed hOrder hStatus hNone
    ((hPerm.map ProviderEvent.eventId).nodup_iff.mp hIds)
    (fun event hEvent => hValid event (hPerm.mem_iff.mpr hEvent))
    (fun event hEvent => hPayment event (hPerm.mem_iff.mpr hEvent))
    (fun event hEvent => hRegular event (hPerm.mem_iff.mpr hEvent))
    (fun event hEvent => hCommon event (hPerm.mem_iff.mpr hEvent)) receivedSecond nowSecond
  refine ⟨_, hFirst, hSecond.trans (congrArg some ?_)⟩
  apply settledOutcome_congr
  intro event
  simp only [List.mem_filter, decide_eq_true_eq, ← hPerm.mem_iff]
  constructor
  · rintro ⟨hEvent, hAccepted, hRest⟩
    exact ⟨hEvent, by rw [hReceived event hEvent]; exact hAccepted, hRest⟩
  · rintro ⟨hEvent, hAccepted, hRest⟩
    exact ⟨hEvent, by rw [← hReceived event hEvent]; exact hAccepted, hRest⟩

/-- A refund may even arrive first, and an event for another amount between. -/
theorem ingestion_confluent_refund_first :
    ∃ outcome,
      (Runs.run (step .standard) (Runs.run (step .standard) (empty .sandbox) Sample.waiting)
        (ingestions [Sample.event "1" .refundPending 4900 0, Sample.event "2" .captured 100 5,
          Sample.event "3" .captured 4900 172] (fun _ => none) fun _ => Sample.newYear)).outcome?
        Sample.orderId = some outcome ∧
      (Runs.run (step .standard) (Runs.run (step .standard) (empty .sandbox) Sample.waiting)
        (ingestions [Sample.event "3" .captured 4900 172, Sample.event "2" .captured 100 5,
          Sample.event "1" .refundPending 4900 0] (fun _ => some "2026-01-01T00:00:00Z")
          fun _ => 0)).outcome? Sample.orderId = some outcome := by
  have hState : (Runs.run (step .standard) (empty .sandbox) Sample.waiting).orderByPayment?
        Sample.paymentId = some Sample.waitingOrder ∧
      (Runs.run (step .standard) (empty .sandbox) Sample.waiting).eventsOf Sample.paymentId = [] ∧
      ∀ event ∈ [Sample.event "1" .refundPending 4900 0, Sample.event "2" .captured 100 5,
        Sample.event "3" .captured 4900 172],
        (Runs.run (step .standard) (empty .sandbox) Sample.waiting).validateEvent .standard
          event.toJson = .ok event := by decide +kernel
  obtain ⟨hOrder, hNone, hValid⟩ := hState
  exact ingestion_confluent .standard ⟨.sandbox, Sample.waiting, rfl⟩ hOrder rfl hNone (by decide)
    (by decide) hValid (by decide) (by decide) (by decide) _ _ _ _ (by decide +kernel)

end Commerce

end VouchSpec
