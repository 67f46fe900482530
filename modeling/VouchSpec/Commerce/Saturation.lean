import VouchSpec.Commerce.Posting
import VouchSpec.Commerce.Ingestion
import VouchSpec.Commerce.Standard

/-! The loop that reconciles a payment, seen as the sequence of the changes it makes:
it ends on its own, with every event that is left stuck. -/

namespace VouchSpec

namespace Commerce

/-- A stored event and the status that the loop gives it. -/
structure Change where
  row : EventRow
  status : EventStatus

/-- What one change does. It sets the status of its event and, only where it marks the
event applied, makes the payment transition with its ledger and history rows. -/
structure Change.Makes (change : Change) (paymentId : String) (before after : Commerce) : Prop where
  pending : change.row ∈ before.pendingEvents paymentId
  decided : change.status ≠ .pending
  events : ∃ appliedAt : EventRow → Option String, after.events.rows =
    Table.changed before.events.rows (fun row => row.eventId = change.row.eventId)
      fun row => { row with status := change.status, appliedAt := appliedAt row }
  others : after.environment = before.environment ∧ after.quotes = before.quotes ∧
    after.costRecords = before.costRecords
  effect : ∃ order, before.orderByPayment? paymentId = some order ∧
    if change.status = .applied then
      order.Matches change.row.payload ∧ order.paymentStatus ≠ change.row.payload.type.target ∧
        order.Admits change.row.payload ∧
        after.orders.rows = Table.changed before.orders.rows (fun row => row.orderId = order.orderId)
          (OrderRow.advance change.row.payload) ∧
        after.entries.rows = before.entries.rows ++ change.row.payload.entries order.orderId ∧
        after.history = before.history ++ change.row.payload.history order
    else after.orders = before.orders ∧ after.entries = before.entries ∧ after.history = before.history

/-- Changes made one after the other. -/
inductive Changes (paymentId : String) : Commerce → List Change → Commerce → Prop where
  | nil (db : Commerce) : Changes paymentId db [] db
  | cons {db middle after : Commerce} {change : Change} {rest : List Change}
      (makes : change.Makes paymentId db middle) (later : Changes paymentId middle rest after) :
      Changes paymentId db (change :: rest) after

/-- An event that can be neither applied nor set aside as the order stands. -/
structure Stuck (order : OrderRow) (event : ProviderEvent) : Prop where
  matching : order.Matches event
  different : order.paymentStatus ≠ event.type.target
  refused : ¬order.Admits event

/-- Nothing is booked in the ledger for an event that is still pending. -/
def Unbooked (db : Commerce) (paymentId : String) : Prop :=
  ∀ row ∈ db.pendingEvents paymentId, ∀ entry ∈ db.entries.rows, entry.sourceReference = row.eventId →
    ∃ category, entry.category = .direct category

section
variable {p : Platform} {db after : Commerce} {paymentId : String}

/-- An attempt that made progress is one change. -/
theorem makes_of_attempt {row : EventRow} (hPending : row ∈ db.pendingEvents paymentId)
    (hAttempt : db.applyEvent paymentId row.payload = .ok (after, true)) :
    ∃ status, (Change.mk row status).Makes paymentId db after := by
  obtain ⟨order, hOrder, attempted⟩ := applyEvent_eq_ok.mp hAttempt
  cases attempted with
  | mismatched hMatches =>
      exact ⟨.rejectedAmountMismatch, hPending, EventStatus.noConfusion, ⟨fun row => row.appliedAt, rfl⟩, ⟨rfl, rfl, rfl⟩,
        order, hOrder, rfl, rfl, rfl⟩
  | repeated hMatches hStatus =>
      have hRepeated : order.repeatedEffect row.payload ≠ .pending ∧ order.repeatedEffect row.payload ≠ .applied := by
        unfold OrderRow.repeatedEffect
        split <;> decide
      refine ⟨order.repeatedEffect row.payload, hPending, hRepeated.1, ⟨fun _ => some row.payload.occurredAt, rfl⟩,
        ⟨rfl, rfl, rfl⟩, order, hOrder, ?_⟩
      rw [if_neg hRepeated.2]
      exact ⟨rfl, rfl, rfl⟩
  | applied hMatches hStatus hAdmits booked hBooked =>
      obtain ⟨entries, hEntries, rfl⟩ := financialEntries_eq_ok.mp hBooked
      exact ⟨.applied, hPending, EventStatus.noConfusion, ⟨fun _ => some row.payload.occurredAt, rfl⟩, ⟨rfl, rfl, rfl⟩,
        order, hOrder, hMatches, hStatus, hAdmits, rfl, hEntries, rfl⟩

/-- The events that the loop takes off are changed one after the other. -/
theorem changes_of_taken {items : List EventRow}
    (taken : Greedy.Taken (fun state : Commerce => state.pendingEvents paymentId)
      (fun state row => state.applyEvent paymentId row.payload) db items after) :
    ∃ changes, Changes paymentId db changes after ∧ changes.map Change.row = items := by
  induction taken with
  | nil db => exact ⟨[], .nil db, rfl⟩
  | cons hItem hAttempt _ ih =>
      obtain ⟨changes, hChanges, hRows⟩ := ih
      obtain ⟨status, makes⟩ := makes_of_attempt hItem hAttempt
      exact ⟨_ :: changes, .cons makes hChanges, congrArg (List.cons _) hRows⟩

/-- The event of a change is marked, and the rows of other events stay. -/
theorem Change.Makes.marks {change : Change} (makes : change.Makes paymentId db after) {row : EventRow}
    (hRow : row ∈ db.events.rows) : ∃ later ∈ after.events.rows, later.payload = row.payload ∧
      (row = change.row → later.status = change.status) ∧ (row ≠ change.row → later = row) := by
  obtain ⟨appliedAt, hRows⟩ := makes.events
  by_cases hOwn : row.eventId = change.row.eventId
  · have hSame : row = change.row := event_eq_of_eventId hRow (mem_pendingEvents.mp makes.pending).1 hOwn
    refine ⟨{ row with status := change.status, appliedAt := appliedAt row }, ?_, rfl, fun _ => rfl,
      fun hOther => absurd hSame hOther⟩
    rw [hRows, Table.mem_changed]
    exact Or.inl ⟨row, hRow, decide_eq_true hOwn, rfl⟩
  · refine ⟨row, ?_, rfl, ?_, fun _ => rfl⟩
    · rw [hRows, Table.mem_changed]
      exact Or.inr ⟨hRow, by simpa using hOwn⟩
    · rintro rfl
      exact absurd rfl hOwn

theorem Changes.pending {changes : List Change} (made : Changes paymentId db changes after) {change : Change}
    (hChange : change ∈ changes) : change.row.status = .pending := by
  induction made with
  | nil db => cases hChange
  | cons makes _ ih =>
      rcases List.mem_cons.mp hChange with rfl | hRest
      · exact (mem_pendingEvents.mp makes.pending).2.2
      · exact ih hRest

/-- An event keeps its row, or is marked by the change that is about it. -/
theorem Changes.marks {changes : List Change} (made : Changes paymentId db changes after) {row : EventRow}
    (hRow : row ∈ db.events.rows) : ∃ later ∈ after.events.rows, later.payload = row.payload ∧
      (later = row ∨ ∃ change ∈ changes, change.row = row ∧ later.status = change.status) := by
  induction made generalizing row with
  | nil db => exact ⟨row, hRow, rfl, Or.inl rfl⟩
  | @cons db middle after change rest makes made ih =>
      obtain ⟨next, hNext, hPayload, hOwn, hOther⟩ := makes.marks hRow
      obtain ⟨last, hLast, hSame, hMarked⟩ := ih hNext
      refine ⟨last, hLast, hSame.trans hPayload, ?_⟩
      by_cases hAbout : row = change.row
      · have hStatus := hOwn hAbout
        rcases hMarked with rfl | ⟨other, hChange, rfl, -⟩
        · exact Or.inr ⟨change, List.mem_cons_self, hAbout.symm, hStatus⟩
        · -- No later change is about the event: it is pending no more.
          exact absurd (hStatus.symm.trans (made.pending hChange)) makes.decided
      · obtain rfl := hOther hAbout
        rcases hMarked with rfl | ⟨other, hChange, hAgain, hStatus⟩
        · exact Or.inl rfl
        · exact Or.inr ⟨other, List.mem_cons_of_mem _ hChange, hAgain, hStatus⟩

/-- The payment is bound to an order, and the ledger is clear of its pending events. -/
def Ready (paymentId : String) (db : Commerce) : Prop :=
  (∃ order, db.orderByPayment? paymentId = some order) ∧ Unbooked db paymentId

theorem entries_source {event : ProviderEvent} {orderId : String} {entry : EntryRow}
    (hEntry : entry ∈ event.entries orderId) :
    entry.sourceReference = event.eventId ∧ ∀ category, entry.category ≠ .direct category := by
  cases hType : event.type <;> simp only [ProviderEvent.entries, hType, EventType.target, List.mem_cons,
    List.not_mem_nil, or_false] at hEntry
  · rcases hEntry with rfl | rfl
    · refine ⟨rfl, ?_⟩
      intro category h
      cases h
    · refine ⟨rfl, ?_⟩
      intro category h
      cases h
  · rw [hEntry]
    refine ⟨rfl, ?_⟩
    intro category h
    cases h

/-- The entries of a pending event can be booked. -/
theorem Unbooked.financialEntries_returns (unbooked : Unbooked db paymentId) {row : EventRow}
    (hPending : row ∈ db.pendingEvents paymentId) (order : OrderRow) :
    ∃ booked, (db.setOrder order.orderId (OrderRow.advance row.payload)
      (OrderRow.advance_keys row.payload)).financialEntries (row.payload.entries order.orderId) = .ok booked := by
  have hDistinct : (db.entries.rows ++ row.payload.entries order.orderId).Pairwise
      fun first second => ¬first.keys = second.keys := by
    apply List.pairwise_append.mpr
    refine ⟨db.entries.distinct, entries_distinct row.payload _, ?_⟩
    intro stored hStored entry hEntry hSame
    obtain ⟨hSource, hCategory⟩ := entries_source hEntry
    simp only [EntryRow.keys, Prod.mk.injEq] at hSame
    obtain ⟨category, hDirect⟩ := unbooked row hPending stored hStored (hSame.2.2.trans hSource)
    exact hCategory category (hSame.2.1.symm.trans hDirect)
  exact ⟨_, financialEntries_eq_ok.mpr ⟨⟨_, hDistinct⟩, rfl, rfl⟩⟩

theorem Ready.applyEvent_returns (ready : Ready paymentId db) {row : EventRow}
    (hPending : row ∈ db.pendingEvents paymentId) : ∃ result, db.applyEvent paymentId row.payload = .ok result := by
  obtain ⟨⟨order, hOrder⟩, unbooked⟩ := ready
  suffices hAttempted : ∃ after progressed, Attempted db order row.payload after progressed by
    obtain ⟨after, progressed, attempted⟩ := hAttempted
    exact ⟨(after, progressed), applyEvent_eq_ok.mpr ⟨order, hOrder, attempted⟩⟩
  by_cases hMatches : order.Matches row.payload
  case neg => exact ⟨_, _, .mismatched hMatches⟩
  by_cases hStatus : order.paymentStatus = row.payload.type.target
  case pos => exact ⟨_, _, .repeated hMatches hStatus⟩
  by_cases hAdmits : order.Admits row.payload
  case neg => exact ⟨_, _, .stuck hMatches hStatus hAdmits⟩
  obtain ⟨booked, hBooked⟩ := unbooked.financialEntries_returns hPending order
  exact ⟨_, _, .applied hMatches hStatus hAdmits booked hBooked⟩

/-- A change leaves the payment bound and the ledger clear of what is still pending. -/
theorem Change.Makes.ready {change : Change} (makes : change.Makes paymentId db after) (ready : Ready paymentId db)
    (hLeft : ∀ row, row ∈ after.pendingEvents paymentId ↔ row ∈ db.pendingEvents paymentId ∧ row ≠ change.row) :
    Ready paymentId after := by
  obtain ⟨-, unbooked⟩ := ready
  obtain ⟨order, hOrder, hEffect⟩ := makes.effect
  by_cases hApplied : change.status = .applied
  · rw [if_pos hApplied] at hEffect
    obtain ⟨-, -, -, hOrders, hEntries, -⟩ := hEffect
    constructor
    · rw [orderByPayment?_changed (OrderRow.advance_keys change.row.payload) hOrders, hOrder]
      exact ⟨_, rfl⟩
    · intro row hRow entry hEntry hSource
      obtain ⟨hRow, hOther⟩ := (hLeft row).mp hRow
      rw [hEntries] at hEntry
      rcases List.mem_append.mp hEntry with hStored | hNew
      · exact unbooked row hRow entry hStored hSource
      · -- The new entries refer to the event of the change, which is not pending any more.
        have hSame : row.eventId = change.row.eventId := hSource.symm.trans (entries_source hNew).1
        exact absurd (event_eq_of_eventId (mem_pendingEvents.mp hRow).1 (mem_pendingEvents.mp makes.pending).1 hSame)
          hOther
  · rw [if_neg hApplied] at hEffect
    obtain ⟨hOrders, hEntries, -⟩ := hEffect
    constructor
    · refine ⟨order, ?_⟩
      rw [orderByPayment?, hOrders]
      exact hOrder
    · intro row hRow entry hEntry
      rw [hEntries] at hEntry
      exact unbooked row ((hLeft row).mp hRow).1 entry hEntry

/-- Reconciliation of a payment whose pending events are not booked never raises. -/
theorem Ready.reconcilePayment_returns (ready : Ready paymentId db) :
    ∃ after, db.reconcilePayment paymentId = .ok after := by
  apply Greedy.loop_returns (Ready paymentId) (applyEvent_consuming paymentId)
  · intro state row next progressed hState hPending hAttempt
    cases progressed with
    | false =>
        rw [(applyEvent_consuming paymentId).idle hAttempt]
        exact hState
    | true =>
        obtain ⟨status, makes⟩ := makes_of_attempt hPending hAttempt
        exact makes.ready hState ((applyEvent_consuming paymentId).consumes hPending hAttempt)
  · intro state row hState hPending
    exact hState.applyEvent_returns hPending
  · exact ready

/-- An attempt that gets nowhere is at a stuck event. -/
theorem stuck_of_attempt {row : EventRow} (hAttempt : db.applyEvent paymentId row.payload = .ok (after, false)) :
    ∃ order, db.orderByPayment? paymentId = some order ∧ Stuck order row.payload := by
  obtain ⟨order, hOrder, attempted⟩ := applyEvent_eq_ok.mp hAttempt
  cases attempted with
  | stuck hMatches hStatus hAdmits => exact ⟨order, hOrder, hMatches, hStatus, hAdmits⟩

end

/-- What the loop has come to: one change after another, each to an event that was pending,
no event twice, and what is left pending is stuck. -/
structure Saturated (paymentId : String) (db after : Commerce) (changes : List Change) : Prop where
  made : Changes paymentId db changes after
  once : (changes.map Change.row).Nodup
  were_pending : ∀ change ∈ changes, change.row ∈ db.pendingEvents paymentId
  rows : ∀ row ∈ db.events.rows, ∃ later ∈ after.events.rows, later.payload = row.payload ∧
    (later = row ∨ ∃ change ∈ changes, change.row = row ∧ later.status = change.status)
  stuck : ∀ row ∈ after.pendingEvents paymentId,
    ∃ order, after.orderByPayment? paymentId = some order ∧ Stuck order row.payload

/-- The loop ends on its own, whatever fuel it is given beyond the pending events; it
raises nothing; and it ends saturated. -/
structure Reconciles (p : Platform) (db : Commerce) (paymentId : String) : Prop where
  ends : ∀ fuel, (db.pendingEvents paymentId).length < fuel →
    Greedy.loop (fun state => state.pendingEvents paymentId)
      (fun state row => state.applyEvent paymentId row.payload) fuel db = db.reconcilePayment paymentId
  returns : WellFormed p db ∨ Unbooked db paymentId → ∃ after, db.reconcilePayment paymentId = .ok after
  saturates : ∀ after, db.reconcilePayment paymentId = .ok after → ∃ changes, Saturated paymentId db after changes

/-- For every order and whatever events are stored, reconciliation reaches saturation. -/
theorem reconciliation_saturates (p : Platform) (db : Commerce) (paymentId : String) (order : OrderRow)
    (hOrder : db.orderByPayment? paymentId = some order) : Reconciles p db paymentId where
  ends fuel hFuel := Greedy.loop_more (applyEvent_consuming paymentId) (Nat.lt_succ_self _) hFuel
  returns := by
    rintro (wellFormed | unbooked)
    · exact wellFormed.reconcilePayment_returns hOrder
    · exact Ready.reconcilePayment_returns ⟨⟨order, hOrder⟩, unbooked⟩
  saturates := by
    intro after hReconciled
    obtain ⟨items, hTaken⟩ := Greedy.loop_taken (applyEvent_consuming paymentId) hReconciled
    obtain ⟨hNodup, hPending⟩ := hTaken.items (applyEvent_consuming paymentId)
    obtain ⟨changes, hChanges, rfl⟩ := changes_of_taken hTaken
    exact ⟨changes, {
      made := hChanges
      once := hNodup
      were_pending := fun change hChange => hPending change.row (List.mem_map_of_mem hChange)
      rows := fun row hRow => hChanges.marks hRow
      stuck := fun row hRow => stuck_of_attempt (reconcilePayment_saturated hReconciled row hRow) }⟩

/-- A waiting order whose refund has come in before its payment. -/
def refundFirst : Commerce :=
  { empty .sandbox with
    orders := ⟨[Sample.waitingOrder], by decide⟩
    events := ⟨[newEvent .standard (Sample.event "1" .refundPending 4900 0) "2026-01-01T00:00:00Z",
      newEvent .standard (Sample.event "2" .captured 4900 172) "2026-01-01T00:00:01Z"], by decide⟩ }

theorem reconciliation_saturates_refundFirst : Reconciles .standard refundFirst Sample.paymentId :=
  reconciliation_saturates .standard refundFirst Sample.paymentId Sample.waitingOrder (by decide)

end Commerce

end VouchSpec
