import VouchSpec.Fulfillment.Conduct

/-! What each step of a call can do to the workshop, and that it keeps the
workshop sound and the call's guarantee. -/

namespace VouchSpec

namespace Fulfillment

open Workshop

variable {Caller : Type} {p : Platform} {orderId : String} {caller : Caller} {attempt : Attempt}
  {workshop : Workshop Caller}

theorem Attempt.reaches_eq_ok {stage : Stage} : attempt.reaches stage = .ok () ↔ attempt.fault stage = none := by
  unfold Attempt.reaches
  cases attempt.fault stage <;> simp

/-- The order is found delivered, or admitted, or nothing has happened. -/
theorem assess_cases (orderId : String) (caller : Caller) (attempt : Attempt) (workshop : Workshop Caller) :
    (∃ error, assess orderId caller attempt workshop = (.error error, workshop)) ∨
      ∃ order, workshop.shop.commerce.getOrder orderId = .ok order ∧
        ((order.orderStatus = .delivered ∧ assess orderId caller attempt workshop =
            (.ok order, workshop.log caller .foundDelivered)) ∨
          (order.orderStatus ≠ .delivered ∧ requireReady attempt order = .ok () ∧
            assess orderId caller attempt workshop = (.ok order, workshop.log caller .admitted))) := by
  unfold assess
  cases hOrder : workshop.shop.commerce.getOrder orderId with
  | error error =>
      left
      exact ⟨error, by simp [bind, Routine.reading, hOrder]⟩
  | ok order =>
      by_cases hStatus : order.orderStatus = .delivered
      · right
        refine ⟨order, rfl, Or.inl ⟨hStatus, ?_⟩⟩
        simp [bind, Routine.reading, hOrder, hStatus, note, pure]
      cases hReady : requireReady attempt order with
      | error error =>
          left
          exact ⟨error, by simp [bind, Routine.reading, hOrder, hStatus, hReady]⟩
      | ok _ =>
          right
          refine ⟨order, rfl, Or.inr ⟨hStatus, hReady, ?_⟩⟩
          simp [bind, Routine.reading, hOrder, hStatus, hReady, note, pure]

/-- The directory is made when there is none, or nothing has happened. -/
theorem makeDirectory_cases (caller : Caller) (attempt : Attempt) (workshop : Workshop Caller) :
    (∃ error, makeDirectory caller attempt workshop = (.error error, workshop)) ∨
      (workshop.job = none ∧ makeDirectory caller attempt workshop =
        (.ok (), ({ workshop with job := some {} } : Workshop Caller).log caller .made)) := by
  unfold makeDirectory
  cases hFault : attempt.reaches .makeDirectory with
  | error error =>
      left
      exact ⟨error, by simp [bind, Routine.transaction, Except.bind]⟩
  | ok _ =>
      by_cases hJob : workshop.job = none
      · right
        refine ⟨hJob, ?_⟩
        simp [bind, Routine.transaction, Except.bind, require, hJob, note, pure, Except.pure]
      · left
        refine ⟨.fileError, ?_⟩
        simp [bind, Routine.transaction, Except.bind, require, hJob]

/-- A transaction of the commerce store commits, or nothing has happened. -/
theorem commerceCall_cases {Value : Type} (attempt : Attempt) (stage : Stage)
    (body : Commerce → Except Raised (Commerce × Value)) (workshop : Workshop Caller) :
    (∃ error, commerceCall attempt stage body workshop = (.error error, workshop) ∧
      (attempt.fault stage = none → body workshop.shop.commerce = .error error)) ∨
      ∃ commerce value, body workshop.shop.commerce = .ok (commerce, value) ∧
        commerceCall attempt stage body workshop = (.ok value, workshop.commit commerce) := by
  unfold commerceCall
  cases hFault : attempt.fault stage with
  | some error =>
      left
      refine ⟨error, ?_, by simp⟩
      simp [Routine.transaction, Attempt.reaches, hFault, bind, Except.bind]
  | none =>
      cases hBody : body workshop.shop.commerce with
      | error error =>
          left
          refine ⟨error, ?_, fun _ => rfl⟩
          simp [Routine.transaction, Attempt.reaches, hFault, bind, Except.bind, hBody]
      | ok result =>
          right
          refine ⟨result.1, result.2, rfl, ?_⟩
          simp [Routine.transaction, Attempt.reaches, hFault, bind, Except.bind, hBody, pure, Except.pure,
            Workshop.commit]

/-- The envelope is published, or nothing has happened. -/
theorem publishEnvelope_cases (p : Platform) (orderId : String) (caller : Caller) (attempt : Attempt)
    (envelope : Bytes) (workshop : Workshop Caller) :
    (∃ error, publishEnvelope p orderId caller attempt envelope workshop = (.error error, workshop)) ∨
      ∃ access digest, workshop.shop.access.publishResult p workshop.shop.commerce orderId envelope none
          (attempt.utcNow .publish) = .ok (access, digest) ∧
        publishEnvelope p orderId caller attempt envelope workshop =
          (.ok (), ({ workshop with shop := { workshop.shop with access } } : Workshop Caller).log caller
            (.published envelope)) := by
  unfold publishEnvelope
  cases hFault : attempt.reaches .publish with
  | error error =>
      left
      exact ⟨error, by simp [bind, Routine.transaction, Except.bind]⟩
  | ok _ =>
      cases hPublish : workshop.shop.access.publishResult p workshop.shop.commerce orderId envelope none
          (attempt.utcNow .publish) with
      | error error =>
          left
          exact ⟨error, by simp [bind, Routine.transaction, Except.bind, hPublish]⟩
      | ok result =>
          right
          refine ⟨result.1, result.2, rfl, ?_⟩
          simp [bind, Routine.transaction, Except.bind, hPublish, pure, Except.pure, note]

/-- A deed that changes neither the order nor its directory. -/
theorem guarantee_log {after : Workshop Caller} {new : Deed}
    (hDeeds : ∀ other deed, after.Did other deed ↔ workshop.Did other deed ∨ other = caller ∧ deed = new)
    (hJob : after.job = workshop.job) (hCommerce : after.shop.commerce = workshop.shop.commerce)
    (hEntry : new = .admitted → workshop.Paid orderId)
    (hFirst : new = .foundDelivered ∨ (∃ deed, workshop.Did caller deed) ∨
      workshop.status? orderId ≠ some .delivered) : Guarantee orderId caller workshop after where
  others other hOther deed := by simp [hDeeds, hOther]
  kept deed hDeed := (hDeeds caller deed).mpr (Or.inl hDeed)
  job := Or.inl hJob
  status := Or.inl (by rw [status?, hCommerce, status?])
  payment := by rw [payment?, hCommerce, payment?]
  entry hAdmitted := ((hDeeds caller .admitted).mp hAdmitted).imp id fun h => hEntry h.2.symm
  untouched := Or.inr hCommerce
  first hNone hStatus deed hDeed := by
    rcases (hDeeds caller deed).mp hDeed with hOld | ⟨-, rfl⟩
    · exact absurd hOld (hNone deed)
    rcases hFirst with h | ⟨old, hOld⟩ | hNot
    · exact h
    · exact absurd hOld (hNone old)
    · exact absurd hStatus hNot

/-- What the status columns of the order are after an effect on it. -/
theorem commit_status {commerce : Commerce} {condition : OrderRow → Prop} {effect : OrderRow → Effect}
    {order : OrderRow}
    (acts : Commerce.Acts workshop.shop.commerce commerce orderId condition effect order) :
    (workshop.commit commerce).status? orderId = some ((effect order).change order).orderStatus ∧
      (workshop.commit commerce).payment? orderId = some ((effect order).change order).paymentStatus ∧
      workshop.status? orderId = some order.orderStatus ∧
      workshop.payment? orderId = some order.paymentStatus := by
  have hAfter := acts.affects.order? orderId
  rw [if_pos rfl, acts.stored, Option.map_some] at hAfter
  refine ⟨?_, ?_, ?_, ?_⟩
  · exact congrArg (Option.map OrderRow.orderStatus) hAfter
  · exact congrArg (Option.map OrderRow.paymentStatus) hAfter
  · exact congrArg (Option.map OrderRow.orderStatus) acts.stored
  · exact congrArg (Option.map OrderRow.paymentStatus) acts.stored

end Fulfillment

end VouchSpec
