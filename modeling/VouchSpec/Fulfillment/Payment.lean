import VouchSpec.Commerce.Takeback
import VouchSpec.Fulfillment.Exclusive

/-! The payment of an order while it is fulfilled. A call looks at the payment when
it is admitted, and not again: the payment is still there when the order is begun
or delivered exactly when no refund or dispute has come in since. -/

namespace VouchSpec

namespace Fulfillment

open Workshop

variable {Caller : Type} {p : Platform} {orderId : String} {caller : Caller} {workshop : Workshop Caller}

/-- The order is begun, or delivered. -/
def Advances (orderId : String) (before after : Workshop Caller) : Prop :=
  before.status? orderId = some .queued ∧ after.status? orderId = some .running ∨
    before.status? orderId = some .running ∧ after.status? orderId = some .delivered

/-- The step takes in a new event that starts a refund or a dispute of the order's payment. -/
def TakesBack (p : Platform) (orderId : String) (workshop : Workshop Caller) : Step Caller → Prop
  | .call _ => False
  | .event eventValue receivedAt utcNow => ∃ order event result,
      workshop.shop.commerce.order? orderId = some order ∧
      workshop.shop.commerce.validateEvent p eventValue = .ok event ∧
      workshop.shop.commerce.ingestProviderEvent p eventValue receivedAt utcNow = .ok result ∧
      workshop.shop.commerce.Reversal order event

/-- The payment has been taken back. -/
def Lost (orderId : String) (workshop : Workshop Caller) : Prop :=
  ∃ status, workshop.payment? orderId = some status ∧ status.Spent

theorem Lost.not_paid (lost : Lost orderId workshop) : ¬workshop.Paid orderId := by
  obtain ⟨status, hStatus, -, hSpent⟩ := lost
  rintro ⟨paid, hPaid, live⟩
  obtain rfl : status = paid := Option.some.inj (hStatus.symm.trans hPaid)
  exact hSpent live

/-- A payment that has been taken back stays so. -/
theorem Lost.ingest (lost : Lost orderId workshop) (eventValue : Json) (receivedAt : Option String) (utcNow : Int) :
    Lost orderId (workshop.ingest p eventValue receivedAt utcNow) := by
  obtain ⟨status, hStatus, spent⟩ := lost
  obtain ⟨order, hOrder, rfl⟩ := Option.map_eq_some_iff.mp hStatus
  obtain ⟨later, hLater, hSpent⟩ := Commerce.ingest_spent hOrder spent eventValue receivedAt utcNow
  exact ⟨later.paymentStatus, Option.map_eq_some_iff.mpr ⟨later, hLater, rfl⟩, hSpent⟩

/-- A payment that is there stays there unless the event takes it back. -/
theorem ingest_paid (sound : Sound p orderId workshop) (paid : workshop.Paid orderId) {eventValue : Json}
    {receivedAt : Option String} {utcNow : Int}
    (hForward : ¬TakesBack p orderId workshop (.event eventValue receivedAt utcNow)) :
    (workshop.ingest p eventValue receivedAt utcNow).Paid orderId := by
  obtain ⟨status, hStatus, live⟩ := paid
  obtain ⟨order, hOrder, rfl⟩ := Option.map_eq_some_iff.mp hStatus
  cases hIngest : workshop.shop.commerce.ingestProviderEvent p eventValue receivedAt utcNow with
  | error error =>
      have hSame : workshop.shop.commerce.step p (.ingestProviderEvent eventValue receivedAt utcNow) =
          workshop.shop.commerce := by
        rw [Commerce.step_ingest, hIngest]
      refine ⟨order.paymentStatus, ?_, live⟩
      rw [payment?, Workshop.ingest, hSame]
      exact hStatus
  | ok result =>
      obtain ⟨later, hLater, hLive⟩ := @Commerce.ingest_live p _ sound.reachable.allDrained orderId order hOrder live
        eventValue receivedAt utcNow
        fun event hValid reversal => hForward ⟨order, event, result, hOrder, hValid, hIngest, reversal⟩
      exact ⟨later.paymentStatus, Option.map_eq_some_iff.mpr ⟨later, hLater, rfl⟩, hLive⟩

/-- An event that takes a payment back leaves it taken back. -/
theorem ingest_lost (paid : workshop.Paid orderId) {eventValue : Json} {receivedAt : Option String} {utcNow : Int}
    (hBack : TakesBack p orderId workshop (.event eventValue receivedAt utcNow)) :
    Lost orderId (workshop.ingest p eventValue receivedAt utcNow) := by
  obtain ⟨status, hStatus, live⟩ := paid
  obtain ⟨order, event, result, hOrder, hValid, hIngest, reversal⟩ := hBack
  obtain rfl : order.paymentStatus = status :=
    Option.some.inj ((Option.map_eq_some_iff.mpr ⟨order, hOrder, rfl⟩).symm.trans hStatus)
  obtain ⟨later, hLater, hSpent⟩ := Commerce.ingest_reversal hOrder live hValid reversal hIngest
  exact ⟨later.paymentStatus, Option.map_eq_some_iff.mpr ⟨later, hLater, rfl⟩, hSpent⟩

section
variable [DecidableEq Caller] {attempts : Caller → Attempt} {floor : Floor Caller}

/-- No step of the run takes the payment back after the call has been admitted. -/
def Undisturbed (p : Platform) (orderId : String) (caller : Caller) (floor : Floor Caller)
    (steps : List (Step Caller)) : Prop :=
  ∀ earlier step later, steps = earlier ++ step :: later → (floor.run p earlier).state.Did caller .admitted →
    ¬TakesBack p orderId (floor.run p earlier).state step

theorem undisturbed_concat {steps : List (Step Caller)} {last : Step Caller} :
    Undisturbed p orderId caller floor (steps ++ [last]) ↔ Undisturbed p orderId caller floor steps ∧
      ((floor.run p steps).state.Did caller .admitted → ¬TakesBack p orderId (floor.run p steps).state last) := by
  constructor
  · intro undisturbed
    refine ⟨fun earlier step later hSteps => ?_, undisturbed steps last [] rfl⟩
    exact undisturbed earlier step (later ++ [last]) (by simp [hSteps])
  · rintro ⟨hBefore, hLast⟩ earlier step later hSteps
    rcases List.eq_nil_or_concat later with rfl | ⟨front, final, rfl⟩
    · obtain ⟨rfl, hSame⟩ := List.append_inj' hSteps rfl
      obtain rfl : last = step := List.singleton_inj.mp hSame
      exact hLast
    · have hFront : steps = earlier ++ step :: front := by
        have hShape : steps ++ [last] = (earlier ++ step :: front) ++ [final] := by simpa using hSteps
        exact (List.append_inj' hShape rfl).1
      exact hBefore earlier step front hFront

/-- Where a call has been admitted, the payment is there or has been taken back
since; which of the two, the steps since then tell. -/
theorem paid_iff_undisturbed (onCourse : floor.OnCourse p orderId attempts)
    (hNone : ¬floor.state.Did caller .admitted) (steps : List (Step Caller))
    (hAdmitted : (floor.run p steps).state.Did caller .admitted) :
    ((floor.run p steps).state.Paid orderId ∨ Lost orderId (floor.run p steps).state) ∧
      ((floor.run p steps).state.Paid orderId ↔ Undisturbed p orderId caller floor steps) := by
  induction steps using List.reverseRecOn with
  | nil => exact absurd hAdmitted hNone
  | append_singleton steps last ih =>
      have hRun : floor.run p (steps ++ [last]) = (floor.run p steps).step p last := Runs.run_append _ _ _
      have hCourse := onCourse.run steps
      rw [hRun] at hAdmitted ⊢
      rw [undisturbed_concat]
      cases last with
      | event eventValue receivedAt utcNow =>
          obtain ⟨hEither, hPaid⟩ := ih hAdmitted
          by_cases paid : (floor.run p steps).state.Paid orderId
          · by_cases hBack : TakesBack p orderId (floor.run p steps).state (.event eventValue receivedAt utcNow)
            · have lost := ingest_lost paid hBack
              exact ⟨Or.inr lost, iff_of_false lost.not_paid fun h => h.2 hAdmitted hBack⟩
            · have hKept := ingest_paid hCourse.state paid hBack
              exact ⟨Or.inl hKept, iff_of_true hKept ⟨hPaid.mp paid, fun _ => hBack⟩⟩
          · have lost := (hEither.resolve_left paid).ingest (p := p) eventValue receivedAt utcNow
            exact ⟨Or.inr lost, iff_of_false lost.not_paid fun h => paid (hPaid.mpr h.1)⟩
      | call mover =>
          have hGuarantee := (hCourse.call mover).2
          have hPayment : ((floor.run p steps).step p (.call mover)).state.Paid orderId ↔
              (floor.run p steps).state.Paid orderId := by
            rw [Paid, Paid, hGuarantee.payment]
          have hLost : Lost orderId ((floor.run p steps).step p (.call mover)).state ↔
              Lost orderId (floor.run p steps).state := by
            rw [Lost, Lost, hGuarantee.payment]
          rw [hPayment, hLost]
          by_cases hBefore : (floor.run p steps).state.Did caller .admitted
          · obtain ⟨hEither, hPaid⟩ := ih hBefore
            exact ⟨hEither, hPaid.trans (iff_self_and.mpr fun _ _ h => h)⟩
          · -- The call is admitted by this very step, and has just looked at the payment.
            have paid : (floor.run p steps).state.Paid orderId := by
              by_cases hMover : caller = mover
              · subst hMover
                exact (hGuarantee.entry hAdmitted).resolve_left hBefore
              · exact absurd ((hGuarantee.others caller hMover _).mp hAdmitted) hBefore
            refine ⟨Or.inl paid, iff_of_true paid ⟨?_, fun h => absurd h hBefore⟩⟩
            intro earlier step later hSteps hEarly
            refine absurd ?_ hBefore
            rw [hSteps, Floor.run, Runs.run_append]
            exact Floor.OnCourse.kept (onCourse.run earlier) (step :: later) hEarly

end

end Fulfillment

namespace Sample

open Fulfillment

/-- The order is begun, its refund starts, and the call goes on up to the delivery. -/
def refunding : List (Step Nat) :=
  List.replicate 4 (.call 0) ++
    .event (event "2" .refundPending 4900 0).toJson none newYear :: List.replicate 4 (.call 0)

def shopFloor : Floor Nat := .opening .standard orderId { shop := paidShop, job := none } fun _ => attempt

end Sample

end VouchSpec
