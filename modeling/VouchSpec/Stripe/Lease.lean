import VouchSpec.Stripe.Webhook

/-! Who may write the outcome of a webhook event. The lease keeps two processors
from working on one event; a finish is not checked against it, so the outcome is
safe as long as nobody finishes an event that another processor has taken over. -/

namespace VouchSpec

namespace Stripe

namespace Desk

variable {Processor : Type} {p : Platform} {environment : Environment} {eventId : String}
  {desk : Desk Processor}

/-- What the leases guarantee while every finish is owned. -/
structure Leased (p : Platform) (eventId : String) (desk : Desk Processor) : Prop where
  tickets : ∀ hold ∈ desk.holds, hold.ticket ≤ desk.granted
  distinct : ∀ hold ∈ desk.holds, ∀ other ∈ desk.holds, hold.ticket = other.ticket → hold = other
  absent : desk.inbox.event? eventId = none → desk.holds = []
  processing : ∀ row, desk.inbox.event? eventId = some row → row.status = .processing →
    ∃ hold ∈ desk.holds, ¬desk.TakenOver hold ∧ row.updatedAt = p.timestamp hold.receivedAt
  finished : ∀ row, desk.inbox.event? eventId = some row → row.status ≠ .processing →
    ∀ hold ∈ desk.holds, desk.TakenOver hold
  lapsed : ∀ hold ∈ desk.holds, desk.TakenOver hold → desk.Lapsed hold

theorem leased_initial (clock : Int) : Leased p eventId ({ clock } : Desk Processor) where
  tickets := by simp
  distinct := by simp
  absent _ := rfl
  processing row hRow := by cases hRow
  finished row hRow := by cases hRow
  lapsed := by simp

/-- A lease that has run out stays so. -/
theorem Lapsed.later {later : Desk Processor} {hold : Hold Processor} (lapsed : desk.Lapsed hold)
    (hClock : desk.clock ≤ later.clock) : later.Lapsed hold := by
  unfold Lapsed at lapsed ⊢
  omega

/-- The time passes without a change. -/
theorem Leased.waits (leased : Leased p eventId desk) {receivedAt : Int}
    (hClock : desk.clock ≤ receivedAt) : Leased p eventId { desk with clock := receivedAt } where
  tickets := leased.tickets
  distinct := leased.distinct
  absent := leased.absent
  processing := leased.processing
  finished := leased.finished
  lapsed hold hHold hTaken := (leased.lapsed hold hHold hTaken).later hClock

/-- A grant is safe once every other lease has run out. -/
theorem Leased.granted (leased : Leased p eventId desk) {inbox : Inbox} {row : WebhookRow}
    {processor : Processor} {receivedAt : Int} (hRow : inbox.event? eventId = some row)
    (hStatus : row.status = .processing) (hUpdated : row.updatedAt = p.timestamp receivedAt)
    (hFree : ∀ hold ∈ desk.holds,
      webhookProcessingLease ≤ receivedAt / 1000000 * 1000000 - hold.receivedAt / 1000000 * 1000000) :
    Leased p eventId ({ inbox, clock := receivedAt, granted := desk.granted + 1,
                        holds := ⟨processor, desk.granted + 1, receivedAt⟩ :: desk.holds } :
      Desk Processor) where
  tickets hold hHold := by
    rcases List.mem_cons.mp hHold with rfl | hOld
    · exact Nat.le_refl _
    · exact Nat.le_succ_of_le (leased.tickets hold hOld)
  distinct hold hHold other hOther hSame := by
    rcases List.mem_cons.mp hHold with rfl | hOld <;> rcases List.mem_cons.mp hOther with rfl | hEarlier
    · rfl
    · have := leased.tickets other hEarlier
      simp only at hSame
      omega
    · have := leased.tickets hold hOld
      simp only at hSame
      omega
    · exact leased.distinct hold hOld other hEarlier hSame
  absent hNone := by
    rw [hRow] at hNone
    cases hNone
  processing found hFound _ := by
    obtain rfl : row = found := Option.some.inj (hRow.symm.trans hFound)
    exact ⟨_, List.mem_cons_self, not_not.mpr rfl, hUpdated⟩
  finished found hFound hOther := by
    obtain rfl : row = found := Option.some.inj (hRow.symm.trans hFound)
    exact absurd hStatus hOther
  lapsed hold hHold hTaken := by
    rcases List.mem_cons.mp hHold with rfl | hOld
    · exact absurd rfl hTaken
    · exact hFree hold hOld

/-- When the event is free, every lease has run out. -/
theorem Leased.free (leased : Leased p eventId desk) {row : WebhookRow} {receivedAt : Int}
    (hClock : desk.clock ≤ receivedAt) (hRow : desk.inbox.event? eventId = some row)
    (hFree : row.status = .retryable ∨ row.status = .processing ∧ ∃ received updated,
      parseTime p (p.timestamp receivedAt) = .ok received ∧ parseTime p row.updatedAt = .ok updated ∧
        webhookProcessingLease ≤ received - updated) :
    ∀ hold ∈ desk.holds,
      webhookProcessingLease ≤ receivedAt / 1000000 * 1000000 - hold.receivedAt / 1000000 * 1000000 := by
  intro hold hHold
  by_cases hTaken : desk.TakenOver hold
  · have hLapsed := leased.lapsed hold hHold hTaken
    unfold Lapsed at hLapsed
    omega
  · rcases hFree with hRetryable | ⟨hProcessing, received, updated, hReceived, hUpdated, hLease⟩
    · exact absurd (leased.finished row hRow (by simp [hRetryable]) hold hHold) hTaken
    · -- The event is still processing, so its last time is that of the latest reservation.
      obtain ⟨latest, hLatest, hCurrent, hTime⟩ := leased.processing row hRow hProcessing
      have hSame : hold = latest := leased.distinct hold hHold latest hLatest
        ((not_not.mp hTaken).trans (not_not.mp hCurrent).symm)
      rw [hTime, ← hSame] at hUpdated
      rw [parseTime_timestamp hReceived, parseTime_timestamp hUpdated] at hLease
      exact hLease

/-- Two processors whose leases run hold the same reservation. -/
theorem Leased.exclusive (leased : Leased p eventId desk) {first second : Hold Processor}
    (hFirst : first ∈ desk.holds) (hSecond : second ∈ desk.holds) (hRuns : ¬desk.Lapsed first)
    (hAlso : ¬desk.Lapsed second) : first = second := by
  have hCurrent := not_not.mp (mt (leased.lapsed first hFirst) hRuns)
  have hOther := not_not.mp (mt (leased.lapsed second hSecond) hAlso)
  exact leased.distinct first hFirst second hSecond (hCurrent.trans hOther.symm)

variable [DecidableEq Processor]

theorem mem_of_hold? {processor : Processor} {hold : Hold Processor}
    (hHold : desk.hold? processor = some hold) : hold ∈ desk.holds ∧ hold.processor = processor :=
  ⟨List.mem_of_find?_eq_some hHold, by simpa using List.find?_some hHold⟩

/-- An owned finish leaves only leases that have run out. -/
theorem Leased.finishes (leased : Leased p eventId desk) {processor : Processor}
    {hold : Hold Processor} {outcome : Outcome} {orderId : Option String}
    (hHold : desk.hold? processor = some hold) (hOwned : ¬desk.TakenOver hold) :
    Leased p eventId { desk with
      inbox := (finishWebhook desk.inbox eventId outcome.status (p.timestamp hold.receivedAt)
        orderId).toOption.getD desk.inbox
      holds := desk.holds.filter fun other => other.processor ≠ processor } := by
  obtain ⟨hMember, rfl⟩ := mem_of_hold? hHold
  have hOthers : ∀ other ∈ desk.holds.filter fun other => other.processor ≠ hold.processor,
      other ∈ desk.holds ∧ desk.TakenOver other := by
    intro other hOther
    obtain ⟨hStored, hDifferent⟩ := List.mem_filter.mp hOther
    refine ⟨hStored, ?_⟩
    intro hTicket
    have hSame := leased.distinct other hStored hold hMember (hTicket.trans (not_not.mp hOwned).symm)
    rw [hSame] at hDifferent
    exact of_decide_eq_true hDifferent rfl
  cases hResult : finishWebhook desk.inbox eventId outcome.status (p.timestamp hold.receivedAt)
      orderId with
  | error error =>
      unfold finishWebhook at hResult
      split at hResult
      · cases hResult
      · next hNone =>
          rw [leased.absent hNone] at hMember
          cases hMember
  | ok after =>
      obtain ⟨row, next, -, hNext, hStatus, -⟩ := finishWebhook_eq_ok hResult
      exact {
        tickets := fun other hOther => leased.tickets other (hOthers other hOther).1
        distinct := fun first hFirst second hSecond =>
          leased.distinct first (hOthers first hFirst).1 second (hOthers second hSecond).1
        absent := fun hNone => by
          change after.event? eventId = none at hNone
          rw [hNext] at hNone
          cases hNone
        processing := fun found hFound hProcessing => by
          obtain rfl : next = found := Option.some.inj (hNext.symm.trans hFound)
          rw [hStatus] at hProcessing
          cases outcome <;> cases hProcessing
        finished := fun _ _ _ other hOther => (hOthers other hOther).2
        lapsed := fun other hOther hTaken => leased.lapsed other (hOthers other hOther).1 hTaken }

/-- Every call keeps the leases, provided that a finish is owned. -/
theorem Leased.step (leased : Leased p eventId desk) {call : WebhookCall Processor}
    (hOwned : desk.Owned call) : Leased p eventId (desk.step p environment eventId call) := by
  cases call with
  | reserve processor payloadDigest eventType objectId apiVersion receivedAt =>
      change Leased p eventId (desk.reserve p environment eventId processor _ _ _ _ receivedAt)
      unfold Desk.reserve
      split
      · next hLegal =>
          split
          · next inbox reservation hReturns =>
              cases reserveWebhook_reserves hReturns with
              | fresh hNone hRow hStatus hUpdated =>
                  have hNobody := leased.absent hNone
                  exact leased.granted hRow hStatus hUpdated (by simp [hNobody])
              | again hRow hNext hStatus hUpdated hFree =>
                  exact leased.granted hNext hStatus hUpdated (leased.free hLegal.1 hRow hFree)
              | known hRow hStatus => exact leased.waits hLegal.1
          · exact leased.waits hLegal.1
      · exact leased
  | finish processor outcome orderId =>
      change Leased p eventId (desk.finish p eventId processor outcome orderId)
      unfold Desk.finish
      split
      · next hold hHold => exact leased.finishes hHold (hOwned hold hHold)
      · exact leased

end Desk

/-- The statuses that answer every later delivery of the event. -/
def WebhookStatus.Final (status : WebhookStatus) : Prop :=
  status = .processed ∨ status = .ignored ∨ status = .rejected

instance (status : WebhookStatus) : Decidable status.Final := inferInstanceAs (Decidable (_ ∨ _ ∨ _))

namespace Desk

variable {Processor : Type} [DecidableEq Processor] {p : Platform} {environment : Environment}
  {eventId : String} {desk : Desk Processor}

/-- An owned call leaves a final status as it is. -/
theorem Leased.final (leased : Leased p eventId desk) {call : WebhookCall Processor}
    (hOwned : desk.Owned call) {status : WebhookStatus} (hFinal : status.Final)
    (hStatus : desk.status? eventId = some status) :
    (desk.step p environment eventId call).status? eventId = some status := by
  obtain ⟨row, hRow, rfl⟩ := Option.map_eq_some_iff.mp hStatus
  have hDone : row.status ≠ .processing ∧ row.status ≠ .retryable := by
    rcases hFinal with h | h | h <;> simp [h]
  cases call with
  | reserve processor payloadDigest eventType objectId apiVersion receivedAt =>
      change (desk.reserve p environment eventId processor _ _ _ _ receivedAt).status? eventId = _
      unfold Desk.reserve
      split
      · split
        · next inbox reservation hReturns =>
            cases reserveWebhook_reserves hReturns with
            | fresh hNone =>
                rw [hRow] at hNone
                cases hNone
            | again hFound hNext hProcessing hUpdated hFree =>
                rw [hRow] at hFound
                cases hFound
                rcases hFree with hRetryable | ⟨hOpen, -⟩
                · exact absurd hRetryable hDone.2
                · exact absurd hOpen hDone.1
            | known hFound hOther => exact hStatus
        · exact hStatus
      · exact hStatus
  | finish processor outcome orderId =>
      change (desk.finish p eventId processor outcome orderId).status? eventId = _
      unfold Desk.finish
      split
      · next hold hHold =>
          exact absurd (leased.finished row hRow hDone.1 hold (mem_of_hold? hHold).1) (hOwned hold hHold)
      · exact hStatus

/-- The ownership of an event throughout a run: a final status never changes,
at most one lease runs at a time, and whoever was taken over changes nothing. -/
structure Ownership (p : Platform) (environment : Environment) (eventId : String)
    (start : Desk Processor) (calls : List (WebhookCall Processor)) : Prop where
  final : ∀ before rest status, calls = before ++ rest → WebhookStatus.Final status →
    (Runs.run (step p environment eventId) start before).status? eventId = some status →
    (Runs.run (step p environment eventId) start calls).status? eventId = some status
  exclusive : ∀ before rest, calls = before ++ rest →
    ∀ first ∈ (Runs.run (step p environment eventId) start before).holds,
    ∀ second ∈ (Runs.run (step p environment eventId) start before).holds,
    ¬(Runs.run (step p environment eventId) start before).Lapsed first →
    ¬(Runs.run (step p environment eventId) start before).Lapsed second →
    first = second
  superseded : ∀ before processor outcome orderId rest hold,
    calls = before ++ .finish processor outcome orderId :: rest →
    (Runs.run (step p environment eventId) start before).hold? processor = some hold →
    (Runs.run (step p environment eventId) start before).TakenOver hold →
    (Runs.run (step p environment eventId) start (before ++ [.finish processor outcome orderId])).status?
        eventId =
      (Runs.run (step p environment eventId) start before).status? eventId

/-- The ownership holds in every run in which a processor finishes only while
nobody else has been granted the event. -/
theorem webhook_ownership (p : Platform) (environment : Environment) (eventId : String) (clock : Int)
    (calls : List (WebhookCall Processor))
    (hOwned : Runs.Meets (step p environment eventId) Owned { clock } calls) :
    Ownership p environment eventId { clock } calls := by
  have hLeased : ∀ before rest, calls = before ++ rest →
      Leased p eventId (Runs.run (step p environment eventId) { clock } before) ∧
      Runs.Meets (step p environment eventId) Owned
        (Runs.run (step p environment eventId) { clock } before) rest := by
    rintro before rest rfl
    obtain ⟨hBefore, hRest⟩ := Runs.meets_append.mp hOwned
    exact ⟨hBefore.invariant (Leased p eventId) (fun _ _ hCall leased => leased.step hCall)
      (leased_initial clock), hRest⟩
  constructor
  · intro before rest status hSplit hFinal hStatus
    obtain ⟨leased, hRest⟩ := hLeased before rest hSplit
    rw [hSplit, Runs.run_append]
    exact hRest.kept (Leased p eventId) (fun desk => desk.status? eventId = some status)
      (fun _ _ hCall leased => leased.step hCall)
      (fun _ _ hCall leased hKept => leased.final hCall hFinal hKept) leased hStatus
  · intro before rest hSplit first hFirst second hSecond hRuns hAlso
    exact (hLeased before rest hSplit).1.exclusive hFirst hSecond hRuns hAlso
  · intro before processor outcome orderId rest hold hSplit hHold hTaken
    exact absurd hTaken ((hLeased before _ hSplit).2.1 hold hHold)

end Desk

namespace Sample

def webhookId : String := "evt_PROCESSING12345678"

/-- A reservation by a numbered processor some minutes into the epoch. -/
def reserve (processor : Nat) (after : Int) : WebhookCall Nat :=
  .reserve processor "aa" "checkout.session.completed" "cs_test_00000001" "v1" (minutes after)

/-- The first processor is slow: the second takes the event over, the late finish
of the first lets a third one in, and the outcome is written twice. -/
def overtaken : List (WebhookCall Nat) :=
  [reserve 1 0, reserve 2 10, .finish 1 .retryable none, reserve 3 10, .finish 2 .processed none,
    .finish 3 .rejected none]

/-- The first processor crashes: the second takes the event over and finishes it. -/
def recovered : List (WebhookCall Nat) :=
  [reserve 1 0, reserve 2 5, reserve 2 10, .finish 2 .processed none, reserve 3 11]

end Sample

/-- A processor that was taken over overwrites the outcome. -/
theorem webhook_overwritten :
    ¬Desk.Ownership .standard .sandbox Sample.webhookId { clock := 0 } Sample.overtaken := by
  intro ownership
  have hFinal := ownership.final (Sample.overtaken.take 5) (Sample.overtaken.drop 5) .processed rfl
    (Or.inl rfl) (by decide +kernel)
  revert hFinal
  decide +kernel

theorem webhook_ownership_recovered :
    Desk.Ownership .standard .sandbox Sample.webhookId { clock := 0 } Sample.recovered :=
  Desk.webhook_ownership .standard .sandbox Sample.webhookId 0 Sample.recovered (by decide +kernel)

end Stripe

end VouchSpec
