import VouchSpec.Commerce.Standard
import VouchSpec.Stripe.Adapter

/-! The processing of one webhook event by many processors. A reservation is a
lease: it lapses with time, and then another processor may take the event over. -/

namespace VouchSpec

namespace Stripe

inductive WebhookStatus where
  | processing
  | processed
  | ignored
  | retryable
  | rejected
deriving DecidableEq

/-- A row of `stripe_webhook_events`. -/
structure WebhookRow where
  eventId : String
  payloadDigest : String
  eventType : String
  objectId : String
  apiVersion : String
  livemode : Bool
  status : WebhookStatus
  orderId : Option String := none
  receivedAt : String
  updatedAt : String
deriving DecidableEq

abbrev Inbox := Table WebhookRow.eventId Eq

def Inbox.event? (inbox : Inbox) (eventId : String) : Option WebhookRow :=
  inbox.find? fun row => row.eventId = eventId

/-- What a processor is told about an event. -/
structure Reservation where
  duplicate : Bool
  status : WebhookStatus
  orderId : Option String
deriving DecidableEq

/-- `WEBHOOK_PROCESSING_LEASE`. -/
def webhookProcessingLease : Int := minutes 10

/-- The row of an event that has just arrived. -/
def newWebhook (environment : Environment)
    (eventId payloadDigest eventType objectId apiVersion receivedAt : String) : WebhookRow :=
  { eventId, payloadDigest, eventType, objectId, apiVersion, livemode := livemode environment
    status := .processing, receivedAt, updatedAt := receivedAt }

/-- A processing event whose lease has run out. -/
def staleProcessing (p : Platform) (row : WebhookRow) (receivedAt : String) : Except Raised Bool :=
  if row.status = .processing then do
    let received ← parseTime p receivedAt
    let updated ← parseTime p row.updatedAt
    return decide (webhookProcessingLease ≤ received - updated)
  else return false

/-- `_reserve_webhook`. -/
def reserveWebhook (p : Platform) (environment : Environment) (inbox : Inbox)
    (eventId payloadDigest eventType objectId apiVersion receivedAt : String) :
    Except Raised (Inbox × Reservation) :=
  match inbox.event? eventId with
  | some row => do
      require (row.payloadDigest = payloadDigest)
        (VouchSpec.rejected "Stripe event identifier was reused" "stripe_event_conflict")
      let stale ← staleProcessing p row receivedAt
      if row.status = .retryable ∨ stale = true then
        return (inbox.update (fun row => row.eventId = eventId)
            (fun row => { row with status := .processing, updatedAt := receivedAt }) (fun _ => rfl),
          { duplicate := false, status := .processing, orderId := row.orderId })
      else if row.status = .processing then
        throw (VouchSpec.rejected "Stripe event reconciliation is already in progress"
          "stripe_event_processing")
      else
        return (inbox, { duplicate := true, status := row.status, orderId := row.orderId })
  | none => do
      let after ← Except.ofOption .integrityError (inbox.insert?
        (newWebhook environment eventId payloadDigest eventType objectId apiVersion receivedAt))
      return (after, { duplicate := false, status := .processing, orderId := none })

/-- `_finish_webhook`. -/
def finishWebhook (inbox : Inbox) (eventId : String) (status : WebhookStatus) (updatedAt : String)
    (orderId : Option String) : Except Raised Inbox :=
  match inbox.event? eventId with
  | some _ => .ok (inbox.update (fun row => row.eventId = eventId)
      (fun row => { row with status, orderId := orderId.or row.orderId, updatedAt }) (fun _ => rfl))
  | none => .error (VouchSpec.rejected "Stripe webhook audit state is missing" "stripe_event_conflict")

section
variable {p : Platform} {environment : Environment} {inbox after : Inbox}
  {eventId payloadDigest eventType objectId apiVersion : String}

theorem Inbox.event?_eq_some {row : WebhookRow} :
    inbox.event? eventId = some row ↔ row ∈ inbox.rows ∧ row.eventId = eventId := by
  unfold Inbox.event?
  rw [Table.find?_eq_some]
  · simp
  · intro first second hFirst hSecond
    simp only [decide_eq_true_eq] at hFirst hSecond
    rw [hFirst, hSecond]

/-- An update of the event's row is seen by its lookup. -/
theorem Inbox.event?_update {row : WebhookRow} {change : WebhookRow → WebhookRow}
    {hKeys : ∀ row, (change row).eventId = row.eventId} (hRow : inbox.event? eventId = some row) :
    Inbox.event? (inbox.update (fun row => row.eventId = eventId) change hKeys) eventId =
      some (change row) := by
  obtain ⟨hStored, hId⟩ := Inbox.event?_eq_some.mp hRow
  refine Inbox.event?_eq_some.mpr ⟨?_, (hKeys row).trans hId⟩
  rw [Table.update_rows, Table.mem_changed]
  exact Or.inl ⟨row, hStored, decide_eq_true hId, rfl⟩

/-- A formatted time that is read is the second it names. -/
theorem parseTime_timestamp {instant read : Int} (hRead : parseTime p (p.timestamp instant) = .ok read) :
    read = instant / 1000000 * 1000000 := by
  unfold parseTime at hRead
  simp only [Except.bind_eq_ok_iff, Platform.parseTimestampAs_timestamp, Except.ok.injEq] at hRead
  obtain ⟨_, -, rfl⟩ := hRead
  rfl

/-- The ways in which a reservation returns. -/
inductive Reserves (p : Platform) (inbox : Inbox) (eventId receivedAt : String) :
    Inbox → Reservation → Prop where
  | fresh {after : Inbox} {row : WebhookRow} (hNone : inbox.event? eventId = none)
      (hRow : after.event? eventId = some row) (hStatus : row.status = .processing)
      (hUpdated : row.updatedAt = receivedAt) :
      Reserves p inbox eventId receivedAt after ⟨false, .processing, none⟩
  | again {after : Inbox} {row next : WebhookRow} (hRow : inbox.event? eventId = some row)
      (hNext : after.event? eventId = some next) (hStatus : next.status = .processing)
      (hUpdated : next.updatedAt = receivedAt)
      (hFree : row.status = .retryable ∨ row.status = .processing ∧ ∃ received updated,
        parseTime p receivedAt = .ok received ∧ parseTime p row.updatedAt = .ok updated ∧
          webhookProcessingLease ≤ received - updated) :
      Reserves p inbox eventId receivedAt after ⟨false, .processing, row.orderId⟩
  | known {row : WebhookRow} (hRow : inbox.event? eventId = some row)
      (hStatus : row.status ≠ .processing ∧ row.status ≠ .retryable) :
      Reserves p inbox eventId receivedAt inbox ⟨true, row.status, row.orderId⟩

theorem reserveWebhook_reserves {receivedAt : String} {reservation : Reservation}
    (hReturns : reserveWebhook p environment inbox eventId payloadDigest eventType objectId apiVersion
      receivedAt = .ok (after, reservation)) :
    Reserves p inbox eventId receivedAt after reservation := by
  unfold reserveWebhook at hReturns
  split at hReturns
  · next row hRow =>
      simp only [Except.bind_eq_ok_iff] at hReturns
      obtain ⟨_, -, stale, hStale, hRest⟩ := hReturns
      split at hRest
      · next hFree =>
          simp only [Except.pure_eq_ok_iff, Prod.mk.injEq] at hRest
          obtain ⟨rfl, rfl⟩ := hRest
          refine .again hRow (Inbox.event?_update hRow) rfl rfl ?_
          rcases hFree with hRetryable | rfl
          · exact Or.inl hRetryable
          · unfold staleProcessing at hStale
            split at hStale
            · next hProcessing =>
                simp only [Except.bind_eq_ok_iff, Except.pure_eq_ok_iff, decide_eq_true_eq] at hStale
                obtain ⟨received, hReceived, updated, hUpdated, hLapsed⟩ := hStale
                exact Or.inr ⟨hProcessing, received, updated, hReceived, hUpdated, hLapsed⟩
            · cases hStale
      · next hFree =>
          split at hRest
          · cases hRest
          · next hProcessing =>
              simp only [Except.pure_eq_ok_iff, Prod.mk.injEq] at hRest
              obtain ⟨rfl, rfl⟩ := hRest
              exact .known hRow ⟨hProcessing, fun hRetryable => hFree (Or.inl hRetryable)⟩
  · next hNone =>
      simp only [Except.bind_eq_ok_iff, Except.pure_eq_ok_iff, Prod.mk.injEq,
        Except.ofOption_eq_ok_iff] at hReturns
      obtain ⟨stored, hInsert, rfl, rfl⟩ := hReturns
      have hRows := (Table.insert?_eq_some.mp hInsert).2
      have hStored : newWebhook environment eventId payloadDigest eventType objectId apiVersion
          receivedAt ∈ stored.rows := by
        rw [hRows]
        exact List.mem_append_right _ List.mem_cons_self
      exact .fresh hNone (Inbox.event?_eq_some.mpr ⟨hStored, rfl⟩) rfl rfl

theorem finishWebhook_eq_ok {status : WebhookStatus} {updatedAt : String} {orderId : Option String}
    (hReturns : finishWebhook inbox eventId status updatedAt orderId = .ok after) :
    ∃ row next, inbox.event? eventId = some row ∧ after.event? eventId = some next ∧
      next.status = status ∧ next.updatedAt = updatedAt := by
  unfold finishWebhook at hReturns
  split at hReturns
  · next row hRow =>
      cases hReturns
      exact ⟨row, _, hRow, Inbox.event?_update hRow, rfl, rfl⟩
  · cases hReturns

end

/-- A reservation that a processor obtained and has not finished; tickets number
the reservations in the order in which they were granted. -/
structure Hold (Processor : Type) where
  processor : Processor
  ticket : Nat
  receivedAt : Int
deriving DecidableEq

/-- The inbox with the processors at work on one event. -/
structure Desk (Processor : Type) where
  inbox : Inbox := .empty
  clock : Int
  granted : Nat := 0
  holds : List (Hold Processor) := []

/-- The statuses that a processor finishes with. -/
inductive Outcome where
  | processed
  | ignored
  | retryable
  | rejected
deriving DecidableEq

def Outcome.status : Outcome → WebhookStatus
  | processed => .processed
  | ignored => .ignored
  | retryable => .retryable
  | rejected => .rejected

/-- A call of `_reserve_webhook`, or of `_finish_webhook` by a processor that
holds a reservation. -/
inductive WebhookCall (Processor : Type) where
  | reserve (processor : Processor) (payloadDigest eventType objectId apiVersion : String)
      (receivedAt : Int)
  | finish (processor : Processor) (outcome : Outcome) (orderId : Option String)

namespace Desk

variable {Processor : Type} [DecidableEq Processor]

/-- The reservation that a processor has not finished. -/
def hold? (desk : Desk Processor) (processor : Processor) : Option (Hold Processor) :=
  desk.holds.find? fun hold => hold.processor = processor

/-- The status of the event. -/
def status? (desk : Desk Processor) (eventId : String) : Option WebhookStatus :=
  (desk.inbox.event? eventId).map WebhookRow.status

/-- Other calls have been granted the event since this reservation. -/
def TakenOver (desk : Desk Processor) (hold : Hold Processor) : Prop := hold.ticket ≠ desk.granted

/-- The lease has run out; the stored times are whole seconds. -/
def Lapsed (desk : Desk Processor) (hold : Hold Processor) : Prop :=
  webhookProcessingLease ≤ desk.clock / 1000000 * 1000000 - hold.receivedAt / 1000000 * 1000000

instance (desk : Desk Processor) (hold : Hold Processor) : Decidable (desk.TakenOver hold) :=
  inferInstanceAs (Decidable (_ ≠ _))

instance (desk : Desk Processor) (hold : Hold Processor) : Decidable (desk.Lapsed hold) :=
  inferInstanceAs (Decidable (_ ≤ _))

/-- A call of `_reserve_webhook`. A clock that went backwards and a second
reservation by a processor that still holds one do not occur. -/
def reserve (p : Platform) (environment : Environment) (eventId : String) (desk : Desk Processor)
    (processor : Processor) (payloadDigest eventType objectId apiVersion : String) (receivedAt : Int) :
    Desk Processor :=
  if desk.clock ≤ receivedAt ∧ desk.hold? processor = none then
    match reserveWebhook p environment desk.inbox eventId payloadDigest eventType objectId apiVersion
        (p.timestamp receivedAt) with
    | .ok (inbox, reservation) =>
        if reservation.duplicate then { desk with inbox, clock := receivedAt }
        else { inbox, clock := receivedAt, granted := desk.granted + 1,
               holds := ⟨processor, desk.granted + 1, receivedAt⟩ :: desk.holds }
    | .error _ => { desk with clock := receivedAt }
  else desk

/-- A call of `_finish_webhook`, with the time of the processor's reservation. -/
def finish (p : Platform) (eventId : String) (desk : Desk Processor) (processor : Processor)
    (outcome : Outcome) (orderId : Option String) : Desk Processor :=
  match desk.hold? processor with
  | some hold =>
      { desk with
        inbox := (finishWebhook desk.inbox eventId outcome.status (p.timestamp hold.receivedAt)
          orderId).toOption.getD desk.inbox
        holds := desk.holds.filter fun other => other.processor ≠ processor }
  | none => desk

def step (p : Platform) (environment : Environment) (eventId : String) (desk : Desk Processor) :
    WebhookCall Processor → Desk Processor
  | .reserve processor payloadDigest eventType objectId apiVersion receivedAt =>
      desk.reserve p environment eventId processor payloadDigest eventType objectId apiVersion receivedAt
  | .finish processor outcome orderId => desk.finish p eventId processor outcome orderId

/-- A processor finishes only while no other call has been granted the event. -/
def Owned (desk : Desk Processor) : WebhookCall Processor → Prop
  | .reserve .. => True
  | .finish processor _ _ => ∀ hold ∈ desk.hold? processor, ¬desk.TakenOver hold

instance (desk : Desk Processor) (call : WebhookCall Processor) : Decidable (desk.Owned call) :=
  match call with
  | .reserve .. => inferInstanceAs (Decidable True)
  | .finish processor _ _ => inferInstanceAs (Decidable (∀ hold ∈ desk.hold? processor, _))

end Desk

end Stripe

end VouchSpec
