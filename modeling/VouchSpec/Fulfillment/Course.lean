import VouchSpec.Commerce.Replay
import VouchSpec.Fulfillment.Actions

/-! The course of one call beside the others: what holds at each of its steps,
and that it leaves the order delivered or failed once it has begun. -/

namespace VouchSpec

namespace Fulfillment

open Workshop Program

variable {Caller : Type} {p : Platform} {orderId : String} {caller : Caller} {attempt : Attempt}
  {workshop after : Workshop Caller}

/-- The store calls of the exception handler do not fail. -/
structure Attempt.Handles (attempt : Attempt) : Prop where
  review : attempt.fault .review = none
  fail : attempt.fault .fail = none

/-- The call has done nothing yet. -/
def Fresh (caller : Caller) (workshop : Workshop Caller) : Prop := ∀ deed, ¬workshop.Did caller deed

/-- The call has been admitted, and the order is queued or another call has the directory. -/
structure Admitted (orderId : String) (caller : Caller) (workshop : Workshop Caller) : Prop where
  deeds : ∀ deed, workshop.Did caller deed ↔ deed = .admitted
  waits : workshop.status? orderId = some .queued ∨ workshop.job.isSome = true

/-- The call has made the directory of the queued order. -/
structure Opened (orderId : String) (caller : Caller) (workshop : Workshop Caller) : Prop where
  deeds : ∀ deed, workshop.Did caller deed ↔ deed = .admitted ∨ deed = .made
  status : workshop.status? orderId = some .queued

/-- The call has begun and not delivered. -/
structure Working (orderId : String) (caller : Caller) (workshop : Workshop Caller) : Prop where
  admitted : workshop.Did caller .admitted
  made : workshop.Did caller .made
  began : workshop.Did caller .began
  undelivered : ¬workshop.Did caller .delivered
  underway : workshop.Underway orderId

/-- The call has begun and not signed. -/
structure Unsigned (orderId : String) (caller : Caller) (workshop : Workshop Caller) : Prop where
  working : Working orderId caller workshop
  unsigned : ∀ envelope, ¬workshop.Did caller (.signed envelope)

/-- The call has signed the envelope and not delivered. -/
structure Signed (orderId : String) (caller : Caller) (envelope : Bytes) (workshop : Workshop Caller) : Prop where
  working : Working orderId caller workshop
  signed : workshop.Did caller (.signed envelope)

/-- The order is delivered when the call has delivered it, and failed otherwise. -/
def Finished (orderId : String) (caller : Caller) (workshop : Workshop Caller) : Prop :=
  workshop.status? orderId = some .delivered ∧ workshop.Did caller .delivered ∨
    workshop.status? orderId = some .fulfillmentFailed ∧ ¬workshop.Did caller .delivered

/-- A call that has begun is finished, when its handler's store calls do not fail. -/
def Settled (attempt : Attempt) (orderId : String) (caller : Caller) (workshop : Workshop Caller) : Prop :=
  attempt.Handles → workshop.Did caller .began → Finished orderId caller workshop

section
variable {invariant : Workshop Caller → Prop}

/-- The other calls leave the deeds of this one alone. -/
theorem stable_deeds (assertion : (Deed → Prop) → Prop) :
    Stable invariant (Rely orderId caller) fun workshop => assertion (workshop.Did caller) := by
  intro before after _ _ rely hAssertion
  have hDeeds : after.Did caller = before.Did caller := funext fun deed => propext (rely.deeds deed)
  rwa [hDeeds]

/-- Once this call has made the directory, the others leave the order where it is. -/
theorem Rely.status_made {before after : Workshop Caller} (rely : Rely orderId caller before after)
    (hMade : before.Did caller .made) {status : OrderStatus} (hStatus : before.status? orderId = some status)
    (hPast : status.Past) : after.status? orderId = some status := by
  rcases rely.status status hStatus hPast with hSame | ⟨hNot, -⟩
  · exact hSame
  · exact absurd hMade hNot

theorem Rely.underway {before after : Workshop Caller} (rely : Rely orderId caller before after)
    (hMade : before.Did caller .made) (underway : before.Underway orderId) : after.Underway orderId := by
  rcases underway with h | h
  · exact Or.inl (rely.status_made hMade h (by simp [OrderStatus.Past]))
  · exact Or.inr (rely.status_made hMade h (by simp [OrderStatus.Past]))

theorem stable_admitted : Stable invariant (Rely orderId caller) (Admitted orderId caller) := by
  intro before after _ _ rely admitted
  refine ⟨fun deed => (rely.deeds deed).trans (admitted.deeds deed), ?_⟩
  rcases admitted.waits with hQueued | hJob
  · rcases rely.status .queued hQueued (by simp [OrderStatus.Past]) with hSame | ⟨-, hJob⟩
    · exact Or.inl hSame
    · exact Or.inr hJob
  · exact Or.inr (rely.directory hJob)

theorem stable_opened : Stable invariant (Rely orderId caller) (Opened orderId caller) := by
  intro before after _ _ rely opened
  refine ⟨fun deed => (rely.deeds deed).trans (opened.deeds deed), ?_⟩
  exact rely.status_made ((opened.deeds _).mpr (Or.inr rfl)) opened.status (by simp [OrderStatus.Past])

theorem Working.later {before after : Workshop Caller} (working : Working orderId caller before)
    (rely : Rely orderId caller before after) : Working orderId caller after where
  admitted := (rely.deeds _).mpr working.admitted
  made := (rely.deeds _).mpr working.made
  began := (rely.deeds _).mpr working.began
  undelivered h := working.undelivered ((rely.deeds _).mp h)
  underway := rely.underway working.made working.underway

theorem stable_working : Stable invariant (Rely orderId caller) (Working orderId caller) :=
  fun _ _ _ _ rely working => working.later rely

theorem stable_unsigned : Stable invariant (Rely orderId caller) (Unsigned orderId caller) :=
  fun _ _ _ _ rely unsigned =>
    ⟨unsigned.working.later rely, fun envelope h => unsigned.unsigned envelope ((rely.deeds _).mp h)⟩

theorem stable_signed (envelope : Bytes) :
    Stable invariant (Rely orderId caller) (Signed orderId caller envelope) :=
  fun _ _ _ _ rely signed => ⟨signed.working.later rely, (rely.deeds _).mpr signed.signed⟩

theorem stable_settled : Stable (Sound p orderId) (Rely orderId caller) (Settled attempt orderId caller) := by
  intro before after sound _ rely settled handles hBegan
  have hBegun := (rely.deeds _).mp hBegan
  have hMade := sound.began hBegun
  rcases settled handles hBegun with ⟨hStatus, hDelivered⟩ | ⟨hStatus, hNot⟩
  · exact Or.inl ⟨rely.status_made hMade hStatus (by simp [OrderStatus.Past]), (rely.deeds _).mpr hDelivered⟩
  · refine Or.inr ⟨rely.status_made hMade hStatus (by simp [OrderStatus.Past]), ?_⟩
    exact fun h => hNot ((rely.deeds _).mp h)

end

/-- A step of a call that has begun, or begins, may touch the order and its directory. -/
theorem guarantee_began (hAdmitted : workshop.Did caller .admitted) (hMade : workshop.Did caller .made)
    (hUnderway : workshop.Underway orderId) (hBegan : after.Did caller .began)
    (hOthers : ∀ other, other ≠ caller → ∀ deed, after.Did other deed ↔ workshop.Did other deed)
    (hKept : ∀ deed, workshop.Did caller deed → after.Did caller deed)
    (hPayment : after.payment? orderId = workshop.payment? orderId) :
    Guarantee orderId caller workshop after where
  others := hOthers
  kept := hKept
  job := Or.inr ⟨Or.inr hMade, hKept _ hMade, hUnderway.not_delivered⟩
  status := Or.inr ⟨hAdmitted, hMade, hUnderway⟩
  payment := hPayment
  entry _ := Or.inl hAdmitted
  untouched := Or.inl hBegan
  first hNone := absurd hAdmitted (hNone _)

/-- A transaction of a working call that leaves the deeds as they are. -/
theorem Working.guarantee (working : Working orderId caller workshop)
    (hDeeds : ∀ other deed, after.Did other deed ↔ workshop.Did other deed)
    (hPayment : after.payment? orderId = workshop.payment? orderId) :
    Guarantee orderId caller workshop after :=
  guarantee_began working.admitted working.made working.underway ((hDeeds _ _).mpr working.began)
    (fun other _ deed => hDeeds other deed) (fun deed => (hDeeds caller deed).mpr) hPayment

/-- A deed of a working call. -/
theorem Working.guarantee_log (working : Working orderId caller workshop) {new : Deed}
    (hDeeds : ∀ other deed, after.Did other deed ↔ workshop.Did other deed ∨ other = caller ∧ deed = new)
    (hPayment : after.payment? orderId = workshop.payment? orderId) :
    Guarantee orderId caller workshop after := by
  apply guarantee_began working.admitted working.made working.underway
  · exact (hDeeds _ _).mpr (Or.inl working.began)
  · intro other hOther deed
    simp [hDeeds, hOther]
  · exact fun deed h => (hDeeds _ _).mpr (Or.inl h)
  · exact hPayment

/-- A call that is at work has not found the order delivered. -/
theorem Sound.not_found (sound : Sound p orderId workshop) (hMade : workshop.Did caller .made) :
    ¬workshop.Did caller .foundDelivered := by
  intro hFound
  rcases (sound.found hFound).2 _ hMade with h | ⟨_, h⟩
  · cases h
  · cases h

/-- What a transaction of the commerce store has made of the order. -/
structure Leaves (p : Platform) (orderId : String) (target : OrderStatus) (workshop : Workshop Caller)
    (commerce : Commerce) : Prop where
  reachable : commerce.Reachable p
  status : (workshop.commit commerce).status? orderId = some target
  payment : (workshop.commit commerce).payment? orderId = workshop.payment? orderId

theorem reachable_of_committed {db commerce : Commerce} (reachable : db.Reachable p) {call : Commerce.Call}
    (h : db.committed p call = .ok commerce) : commerce.Reachable p := by
  have hStep : db.step p call = commerce := by
    rw [Commerce.step, h]
  exact hStep ▸ reachable.step call

theorem leaves_of_transition (sound : Sound p orderId workshop) {call : Commerce.Call} {target : OrderStatus}
    {job occurredAt : String} {deliveryStatus : DeliveryStatus} {commerce : Commerce} {view : OrderView}
    (hCall : workshop.shop.commerce.committed p call = Prod.fst <$>
      workshop.shop.commerce.transitionOrder p orderId target job occurredAt deliveryStatus)
    (h : workshop.shop.commerce.transitionOrder p orderId target job occurredAt deliveryStatus =
      .ok (commerce, view)) : Leaves p orderId target workshop commerce := by
  have hReachable : commerce.Reachable p := by
    apply reachable_of_committed sound.reachable
    rw [hCall, h]
    rfl
  rcases Commerce.transitionOrder_acts h with ⟨rfl, order, hOrder, hStatus⟩ | ⟨order, acts⟩
  · exact ⟨hReachable, Option.map_eq_some_iff.mpr ⟨order, hOrder, hStatus⟩, rfl⟩
  · obtain ⟨hStatus, hPayment, -, hBefore⟩ := commit_status acts
    exact ⟨hReachable, hStatus, hPayment.trans hBefore.symm⟩

theorem leaves_of_begin (sound : Sound p orderId workshop) {job occurredAt : String} {commerce : Commerce}
    {view : OrderView}
    (h : workshop.shop.commerce.beginFulfillment p orderId job occurredAt = .ok (commerce, view)) :
    Leaves p orderId .running workshop commerce :=
  @leaves_of_transition _ _ _ _ sound (.beginFulfillment orderId job occurredAt) _ _ _ _ _ _ rfl h

theorem leaves_of_fail (sound : Sound p orderId workshop) {job occurredAt : String} {commerce : Commerce}
    {view : OrderView}
    (h : workshop.shop.commerce.failFulfillment p orderId job occurredAt = .ok (commerce, view)) :
    Leaves p orderId .fulfillmentFailed workshop commerce :=
  @leaves_of_transition _ _ _ _ sound (.failFulfillment orderId job occurredAt) _ _ _ _ _ _ rfl h

theorem leaves_of_deliver (sound : Sound p orderId workshop) {evidence : Commerce.Evidence} {job occurredAt : String}
    {commerce : Commerce} {view : OrderView}
    (h : workshop.shop.commerce.deliver p orderId evidence job occurredAt = .ok (commerce, view)) :
    Leaves p orderId .delivered workshop commerce := by
  have hReachable : commerce.Reachable p := by
    refine @reachable_of_committed _ _ _ sound.reachable (.deliver orderId evidence job occurredAt) ?_
    exact congrArg (Functor.map Prod.fst) h
  rcases Commerce.deliver_acts h with ⟨rfl, order, hOrder, hStatus⟩ | ⟨order, acts⟩
  · exact ⟨hReachable, Option.map_eq_some_iff.mpr ⟨order, hOrder, hStatus⟩, rfl⟩
  · obtain ⟨hStatus, hPayment, -, hBefore⟩ := commit_status acts
    exact ⟨hReachable, hStatus, hPayment.trans hBefore.symm⟩

theorem leaves_of_costs (sound : Sound p orderId workshop) {costs : List (String × Json)} {key : String}
    {recordedAt : Option String} {utcNow : Int} {commerce : Commerce} {view : OrderView}
    (h : workshop.shop.commerce.recordDirectCosts p orderId costs key recordedAt utcNow = .ok (commerce, view))
    {status : OrderStatus} (hStatus : workshop.status? orderId = some status) :
    Leaves p orderId status workshop commerce := by
  have hReachable : commerce.Reachable p := by
    refine @reachable_of_committed _ _ _ sound.reachable (.recordDirectCosts orderId costs key recordedAt utcNow) ?_
    exact congrArg (Functor.map Prod.fst) h
  rcases Commerce.recordDirectCosts_acts h with rfl | ⟨amounts, order, -, acts⟩
  · exact ⟨hReachable, hStatus, rfl⟩
  · obtain ⟨hAfter, hPayment, hBefore, hPaid⟩ := commit_status acts
    exact ⟨hReachable, (hAfter.trans hBefore.symm).trans hStatus, hPayment.trans hPaid.symm⟩

/-- A stored order goes where its status allows. -/
theorem transitionOrder_returns {db : Commerce} {order : OrderRow} (hOrder : db.order? orderId = some order)
    {target : OrderStatus} (hOther : order.orderStatus ≠ target) (hEdge : target ∈ orderTransitions order.orderStatus)
    (job : String) (instant : Int) (deliveryStatus : DeliveryStatus) :
    ∃ result, db.transitionOrder p orderId target job (p.timestamp instant) deliveryStatus = .ok result := by
  obtain rfl := (Commerce.order?_eq_some.mp hOrder).2
  have affects : db.Affects ((db.setOrder order.orderId
        (fun row => { row with orderStatus := target, deliveryStatus, updatedAt := p.timestamp instant })
        fun _ => rfl).addHistory
        [{ orderId := order.orderId, change := .order (some order.orderStatus) target, sourceReference := job,
           occurredAt := p.timestamp instant }]) order.orderId
      (.fulfillment order target deliveryStatus job (p.timestamp instant)) :=
    ⟨rfl, rfl, rfl, (List.append_nil _).symm, (List.append_nil _).symm, rfl, fun _ => rfl,
      by simp [Effect.fulfillment]⟩
  have hAfter := affects.order? order.orderId
  rw [if_pos rfl, hOrder, Option.map_some] at hAfter
  obtain ⟨view, hView, -⟩ := Commerce.orderView_returns hAfter
  simp only [Commerce.transitionOrder, Commerce.parseTimestamp_timestamp, Commerce.requireOrder_eq_ok.mpr hOrder,
    if_neg hOther, requireOrderTransition, require_of hEdge, hView, bind, Except.bind]
  exact ⟨_, rfl⟩

/-- An order that is under way can be failed. -/
theorem failFulfillment_returns (hUnderway : workshop.Underway orderId) (job : String) (instant : Int) :
    ∃ result, workshop.shop.commerce.failFulfillment p orderId job (p.timestamp instant) = .ok result := by
  rcases hUnderway with h | h
  all_goals
    obtain ⟨order, hOrder, hStatus⟩ := Option.map_eq_some_iff.mp h
    apply transitionOrder_returns hOrder
    · simp [hStatus]
    · simp [hStatus, orderTransitions]

/-- The outline of a part of a call. -/
abbrev Follows (p : Platform) (orderId : String) (caller : Caller) {Value : Type} (returned : Value → Workshop Caller → Prop)
    (raised pre : Workshop Caller → Prop) (steps : Steps Caller Value) : Prop :=
  Outline (Sound p orderId) (Rely orderId caller) (Guarantee orderId caller) (Ends returned raised) pre steps

/-- A step that does nothing to the workshop where it raises. -/
theorem follows_once {Value : Type} {routine : Routine (Workshop Caller) Raised Value}
    {returned : Value → Workshop Caller → Prop} {raised pre : Workshop Caller → Prop}
    (hRun : ∀ workshop, Sound p orderId workshop → pre workshop →
      (∃ error, routine workshop = (.error error, workshop) ∧ raised workshop) ∨
        ∃ value after, routine workshop = (.ok value, after) ∧ Sound p orderId after ∧
          Guarantee orderId caller workshop after ∧ returned value after)
    (hReturned : ∀ value, Stable (Sound p orderId) (Rely orderId caller) (returned value))
    (hRaised : Stable (Sound p orderId) (Rely orderId caller) raised) :
    Follows p orderId caller returned raised pre (.once routine) := by
  refine .once ?_ (Stable.ends hReturned hRaised)
  intro workshop sound hPre
  rcases hRun workshop sound hPre with ⟨error, hEnd, hAfter⟩ | ⟨value, after, hEnd, hSound, hGuarantee, hAfter⟩
  · rw [hEnd]
    exact ⟨sound, .refl caller workshop, hAfter⟩
  · rw [hEnd]
    exact ⟨hSound, hGuarantee, hAfter⟩

/-- A read keeps what it needs. -/
theorem follows_reading {Value : Type} {body : Workshop Caller → Except Raised Value}
    {returned : Value → Workshop Caller → Prop} {raised pre : Workshop Caller → Prop}
    (hOk : ∀ workshop value, Sound p orderId workshop → pre workshop → body workshop = .ok value → returned value workshop)
    (hError : ∀ workshop error, Sound p orderId workshop → pre workshop → body workshop = .error error → raised workshop)
    (hReturned : ∀ value, Stable (Sound p orderId) (Rely orderId caller) (returned value))
    (hRaised : Stable (Sound p orderId) (Rely orderId caller) raised) :
    Follows p orderId caller returned raised pre (.once (.reading body)) := by
  refine follows_once (fun workshop sound hPre => ?_) hReturned hRaised
  cases hBody : body workshop with
  | error error => exact Or.inl ⟨error, congrArg (·, workshop) hBody, hError workshop error sound hPre hBody⟩
  | ok value =>
      exact Or.inr ⟨value, workshop, congrArg (·, workshop) hBody, sound, .refl caller workshop,
        hOk workshop value sound hPre hBody⟩

theorem follows_check {Value : Type} {outcome : Except Raised Value} {returned : Value → Workshop Caller → Prop}
    {raised pre : Workshop Caller → Prop} (hReturned : ∀ value workshop, pre workshop → returned value workshop)
    (hRaised : ∀ workshop, pre workshop → raised workshop) :
    Follows p orderId caller returned raised pre (.check outcome) := by
  refine .check fun workshop _ hPre => ?_
  cases outcome with
  | error error => exact hRaised workshop hPre
  | ok value => exact hReturned value workshop hPre

/-- The order that a call has read is the stored one. -/
theorem status_of_getOrder {order : OrderView} (h : workshop.shop.commerce.getOrder orderId = .ok order) :
    workshop.status? orderId = some order.orderStatus ∧ workshop.payment? orderId = some order.paymentStatus := by
  rw [Commerce.getOrder_eq_orderView] at h
  obtain ⟨row, hRow, shows⟩ := Commerce.orderView_shows h
  exact ⟨Option.map_eq_some_iff.mpr ⟨row, hRow, shows.orderStatus.symm⟩,
    Option.map_eq_some_iff.mpr ⟨row, hRow, shows.paymentStatus.symm⟩⟩

/-- The order is queued and paid where a call is admitted. -/
theorem ready_of_require {order : OrderView} (h : requireReady attempt order = .ok ()) :
    order.orderStatus = .queued ∧ order.paymentStatus.Live := by
  simp only [requireReady, Except.bind_eq_ok_iff, require_eq_ok, exists_const] at h
  exact ⟨h.1.1, h.1.2.1⟩

theorem follows_assess : Follows p orderId caller
    (fun order workshop => order.orderStatus = .delivered ∧ workshop.Did caller .foundDelivered ∨
      order.orderStatus ≠ .delivered ∧ Admitted orderId caller workshop)
    (Fresh caller) (Fresh caller) (.once (assess orderId caller attempt)) := by
  apply follows_once
  · intro workshop sound fresh
    rcases assess_cases orderId caller attempt workshop with ⟨error, hEnd⟩ |
      ⟨order, hOrder, ⟨hDelivered, hEnd⟩ | ⟨hOther, hReady, hEnd⟩⟩
    · exact Or.inl ⟨error, hEnd, fresh⟩
    · right
      have hStatus := (status_of_getOrder hOrder).1
      rw [hDelivered] at hStatus
      refine ⟨order, _, hEnd, sound.log ⟨hStatus, fresh⟩, ?_, Or.inl ⟨hDelivered, ?_⟩⟩
      · exact guarantee_log (fun _ _ => did_log) rfl rfl (fun h => by cases h) (Or.inl rfl)
      · exact did_log.mpr (Or.inr ⟨rfl, rfl⟩)
    · right
      obtain ⟨hStatus, hPayment⟩ := status_of_getOrder hOrder
      obtain ⟨hQueued, hLive⟩ := ready_of_require hReady
      rw [hQueued] at hStatus
      refine ⟨order, _, hEnd, sound.log ⟨fresh _, _, hStatus, by simp [OrderStatus.Past]⟩, ?_,
        Or.inr ⟨hOther, ?_, Or.inl hStatus⟩⟩
      · refine guarantee_log (fun _ _ => did_log) rfl rfl (fun _ => ⟨_, hPayment, hLive⟩) (Or.inr (Or.inr ?_))
        simp [hStatus]
      · intro deed
        simp [fresh deed]
  · intro order before after sound hAfter rely hBefore
    rcases hBefore with ⟨hDelivered, hFound⟩ | ⟨hOther, admitted⟩
    · exact Or.inl ⟨hDelivered, (rely.deeds _).mpr hFound⟩
    · exact Or.inr ⟨hOther, stable_admitted before after sound hAfter rely admitted⟩
  · exact stable_deeds fun did => ∀ deed, ¬did deed

theorem follows_directory : Follows p orderId caller (fun _ => Opened orderId caller) (Admitted orderId caller)
    (Admitted orderId caller) (.once (makeDirectory caller attempt)) := by
  apply follows_once
  · intro workshop sound admitted
    rcases makeDirectory_cases caller attempt workshop with ⟨error, hEnd⟩ | ⟨hJob, hEnd⟩
    · exact Or.inl ⟨error, hEnd, admitted⟩
    right
    have hQueued : workshop.status? orderId = some .queued := by
      rcases admitted.waits with h | h
      · exact h
      · rw [hJob] at h
        cases h
    have hFree : ∀ other, ¬workshop.Did other .made := by
      intro other hMade
      have hDirectory := sound.made hMade
      rw [hJob] at hDirectory
      cases hDirectory
    refine ⟨(), _, hEnd, (sound.directory hJob).log ⟨?_, rfl, hFree⟩, ?_, ?_, hQueued⟩
    · intro hFound
      cases (admitted.deeds _).mp hFound
    · have hAdmitted := (admitted.deeds .admitted).mpr rfl
      refine ⟨?_, ?_, ?_, Or.inl rfl, rfl, fun _ => Or.inl hAdmitted, Or.inr rfl, ?_⟩
      · intro other hOther deed
        rw [did_log]
        simp [hOther, Did]
      · exact fun deed hDeed => did_log.mpr (Or.inl hDeed)
      · refine Or.inr ⟨Or.inl hJob, did_log.mpr (Or.inr ⟨rfl, rfl⟩), ?_⟩
        simp [hQueued]
      · exact fun hNone => absurd hAdmitted (hNone _)
    · intro deed
      rw [did_log]
      exact or_congr (admitted.deeds deed) (by simp)
  · exact fun _ => stable_opened
  · exact stable_admitted

theorem Leaves.sound {target : OrderStatus} {commerce : Commerce} (leaves : Leaves p orderId target workshop commerce)
    (sound : Sound p orderId workshop) (hPast : target.Past)
    (hKeeps : workshop.status? orderId = some .delivered → target = .delivered) :
    Sound p orderId (workshop.commit commerce) := by
  apply sound.commit leaves.reachable
  · intro hStatus
    rw [leaves.status, hKeeps hStatus]
  · exact fun _ => ⟨target, leaves.status, hPast⟩

/-- The beginning is noted before the store is asked. -/
theorem follows_begin (job : String) : Follows p orderId caller (fun _ => Unsigned orderId caller)
    (Working orderId caller) (Opened orderId caller) (.once (begin p orderId caller attempt job)) := by
  refine .once (fun workshop sound opened => ?_) (Stable.ends (fun _ => stable_unsigned) stable_working)
  have hAdmitted := (opened.deeds .admitted).mpr (Or.inl rfl)
  have hMade := (opened.deeds .made).mpr (Or.inr rfl)
  have hNoted : Sound p orderId (workshop.log caller .began) := sound.log ⟨sound.not_found hMade, hMade⟩
  have hNot : ∀ {deed}, deed ≠ .admitted → deed ≠ .made → deed ≠ .began →
      ¬(workshop.log caller .began).Did caller deed := by
    intro deed hFirst hSecond hThird hDid
    rcases did_log.mp hDid with h | ⟨-, rfl⟩
    · rcases (opened.deeds deed).mp h with rfl | rfl
      · exact hFirst rfl
      · exact hSecond rfl
    · exact hThird rfl
  have working : ∀ {after : Workshop Caller},
      (∀ deed, after.Did caller deed ↔ (workshop.log caller .began).Did caller deed) →
      after.Underway orderId → Working orderId caller after := by
    intro after hDeeds hUnderway
    refine ⟨(hDeeds _).mpr (did_log.mpr (Or.inl hAdmitted)), (hDeeds _).mpr (did_log.mpr (Or.inl hMade)),
      (hDeeds _).mpr (did_log.mpr (Or.inr ⟨rfl, rfl⟩)), ?_, hUnderway⟩
    exact fun h => hNot (by simp) (by simp) (by simp) ((hDeeds _).mp h)
  change _ ∧ Guarantee _ _ _ (commerceCall _ _ _ (workshop.log caller .began)).2 ∧ _
  rcases commerceCall_cases attempt .begin (fun db => db.beginFulfillment p orderId ("job_" ++ job)
    (p.timestamp (attempt.utcNow .begin))) (workshop.log caller .began) with
    ⟨error, hEnd, -⟩ | ⟨commerce, view, hBegin, hEnd⟩
  · have hSame : begin p orderId caller attempt job workshop = (.error error, workshop.log caller .began) := hEnd
    rw [hSame, hEnd]
    refine ⟨hNoted, ?_, working (fun _ => Iff.rfl) (Or.inl opened.status)⟩
    exact guarantee_log (fun _ _ => did_log) rfl rfl (fun h => by cases h) (Or.inr (Or.inl ⟨_, hAdmitted⟩))
  · have hSame : begin p orderId caller attempt job workshop =
        (.ok view, (workshop.log caller .began).commit commerce) := hEnd
    have leaves := leaves_of_begin hNoted hBegin
    have hStatus : (workshop.log caller .began).status? orderId = some .queued := opened.status
    rw [hSame, hEnd]
    refine ⟨leaves.sound hNoted (by simp [OrderStatus.Past]) (by simp [hStatus]), ?_,
      working (fun _ => Iff.rfl) (Or.inr leaves.status), ?_⟩
    · apply guarantee_began hAdmitted hMade (Or.inl opened.status)
      · exact did_log.mpr (Or.inr ⟨rfl, rfl⟩)
      · intro other hOther deed
        rw [did_commit, did_log]
        simp [hOther]
      · exact fun deed hDeed => did_log.mpr (Or.inl hDeed)
      · exact leaves.payment
    · exact fun envelope => hNot (by simp) (by simp) (by simp)

theorem follows_request : Follows p orderId caller (fun _ => Unsigned orderId caller) (Working orderId caller)
    (Unsigned orderId caller) (.once (readRequest orderId attempt)) :=
  follows_reading (fun _ _ _ unsigned _ => unsigned) (fun _ _ _ unsigned _ => unsigned.working)
    (fun _ => stable_unsigned) stable_working

theorem Working.log (working : Working orderId caller workshop) {deed : Deed} (hDeed : deed ≠ .delivered) :
    Working orderId caller (workshop.log caller deed) where
  admitted := did_log.mpr (Or.inl working.admitted)
  made := did_log.mpr (Or.inl working.made)
  began := did_log.mpr (Or.inl working.began)
  undelivered h := by
    rcases did_log.mp h with h | ⟨-, h⟩
    · exact working.undelivered h
    · exact hDeed h.symm
  underway := working.underway

theorem follows_work : Follows p orderId caller (fun _ => Unsigned orderId caller) (Working orderId caller)
    (Unsigned orderId caller) (.once (work caller attempt)) := by
  refine .once (fun workshop sound unsigned => ?_) (Stable.ends (fun _ => stable_unsigned) stable_working)
  have hMade := unsigned.working.made
  have hSound : Sound p orderId (workshop.log caller .worked) :=
    sound.log ⟨sound.not_found hMade, unsigned.working.began⟩
  have hGuarantee : Guarantee orderId caller workshop (workshop.log caller .worked) :=
    unsigned.working.guarantee_log (fun _ _ => did_log) rfl
  have hWorking : Working orderId caller (workshop.log caller .worked) := unsigned.working.log (by simp)
  have hRun : work caller attempt workshop = (attempt.reaches .work, workshop.log caller .worked) := rfl
  rw [hRun]
  refine ⟨hSound, hGuarantee, ?_⟩
  cases attempt.reaches .work with
  | error error => exact hWorking
  | ok value =>
      refine ⟨hWorking, fun envelope h => ?_⟩
      rcases did_log.mp h with h | ⟨-, h⟩
      · exact unsigned.unsigned envelope h
      · cases h

/-- Only the call that has made the directory can have signed. -/
theorem Unsigned.nobody (unsigned : Unsigned orderId caller workshop) (sound : Sound p orderId workshop) (other : Caller)
    (envelope : Bytes) : ¬workshop.Did other (.signed envelope) := by
  intro hSigned
  obtain rfl := sound.maker (sound.began (sound.signed hSigned).1) unsigned.working.made
  exact unsigned.unsigned envelope hSigned

theorem follows_sign : Follows p orderId caller (fun signing => Signed orderId caller signing.envelope)
    (Working orderId caller) (Unsigned orderId caller) (.once (sign caller attempt)) := by
  refine .once (fun workshop sound unsigned => ?_) (Stable.ends (fun _ => stable_signed _) stable_working)
  have hWrite : ∀ envelope, Sound p orderId (workshop.write envelope) := fun envelope =>
    sound.write (unsigned.nobody sound) unsigned.working.underway.not_delivered
  have hWorking : ∀ envelope, Working orderId caller (workshop.write envelope) := fun envelope =>
    ⟨unsigned.working.admitted, unsigned.working.made, unsigned.working.began, unsigned.working.undelivered,
      unsigned.working.underway⟩
  unfold sign
  cases attempt.fault .sign with
  | some error =>
      cases attempt.leftover with
      | none => exact ⟨sound, .refl caller workshop, unsigned.working⟩
      | some envelope =>
          exact ⟨hWrite envelope, unsigned.working.guarantee (fun _ _ => Iff.rfl) rfl, hWorking envelope⟩
  | none =>
      have hFile : (workshop.write attempt.signing.envelope).envelope? = some attempt.signing.envelope := by
        obtain ⟨job, hJob⟩ := Option.isSome_iff_exists.mp (sound.made unsigned.working.made)
        simp [Workshop.write, envelope?, hJob]
      refine ⟨(hWrite _).log ⟨?_, unsigned.working.began, hFile⟩, ?_, (hWorking _).log (by simp), ?_⟩
      · exact (hWrite attempt.signing.envelope).not_found unsigned.working.made
      · exact unsigned.working.guarantee_log (fun _ _ => did_log) rfl
      · exact did_log.mpr (Or.inr ⟨rfl, rfl⟩)

theorem follows_costs (job : String) (envelope : Bytes) : Follows p orderId caller
    (fun _ => Signed orderId caller envelope) (Working orderId caller) (Signed orderId caller envelope)
    (.once (recordCosts p orderId attempt job)) := by
  refine follows_once (fun workshop sound signed => ?_) (fun _ => stable_signed envelope) stable_working
  rcases commerceCall_cases attempt .costs (fun db => db.recordDirectCosts p orderId attempt.directCosts
    ("cost_" ++ job) (some (p.timestamp (attempt.utcNow .costs))) (attempt.utcNow .costs)) workshop with
    ⟨error, hEnd, -⟩ | ⟨commerce, view, hCosts, hEnd⟩
  · exact Or.inl ⟨error, hEnd, signed.working⟩
  right
  obtain ⟨status, hStatus, hPast⟩ := signed.working.underway.past
  have leaves := leaves_of_costs sound hCosts hStatus
  refine ⟨view, _, hEnd, leaves.sound sound hPast ?_, signed.working.guarantee (fun _ _ => Iff.rfl) leaves.payment, ?_⟩
  · exact fun h => Option.some.inj (hStatus.symm.trans h)
  · obtain ⟨⟨hAdmitted, hMade, hBegan, hUndelivered, hUnderway⟩, hSigned⟩ := signed
    refine ⟨⟨hAdmitted, hMade, hBegan, hUndelivered, ?_⟩, hSigned⟩
    rw [Underway, leaves.status, ← hStatus]
    exact hUnderway

theorem follows_deliver (job : String) (signing : Signing) : Follows p orderId caller
    (fun _ workshop => workshop.Did caller .delivered) (Working orderId caller)
    (Signed orderId caller signing.envelope) (.once (deliver p orderId caller attempt job signing)) := by
  refine follows_once (fun workshop sound signed => ?_) (fun _ => stable_deeds fun did => did .delivered) stable_working
  rcases commerceCall_cases attempt .deliver (fun db => db.deliver p orderId signing.evidence ("job_" ++ job)
    (p.timestamp (attempt.utcNow .deliver))) workshop with ⟨error, hEnd, -⟩ | ⟨commerce, view, hDeliver, hEnd⟩
  · refine Or.inl ⟨error, ?_, signed.working⟩
    simp [deliver, bind, hEnd]
  right
  have leaves := leaves_of_deliver sound hDeliver
  have hSound := leaves.sound sound (by simp [OrderStatus.Past]) fun _ => rfl
  refine ⟨view, (workshop.commit commerce).log caller .delivered, ?_, hSound.log ⟨?_, ?_, ?_, signing.envelope, ?_⟩, ?_, ?_⟩
  · simp [deliver, bind, hEnd, note, pure]
  · exact sound.not_found signed.working.made
  · exact signed.working.began
  · exact leaves.status
  · exact signed.signed
  · exact signed.working.guarantee_log (fun _ _ => did_log) leaves.payment
  · exact did_log.mpr (Or.inr ⟨rfl, rfl⟩)

/-- The access store is no part of what holds of the order. -/
theorem Sound.access (sound : Sound p orderId workshop) (access : Access) :
    Sound p orderId { workshop with shop := { workshop.shop with access } } :=
  ⟨sound.reachable, sound.maker, sound.made, sound.began, sound.worked, sound.signed, sound.delivered,
    sound.published, sound.found, sound.admitted⟩

/-- A call that knows the order delivered publishes what lies in its directory. -/
theorem follows_publish {deed : Deed}
    (hDelivered : ∀ workshop : Workshop Caller, Sound p orderId workshop → workshop.Did caller deed →
      workshop.status? orderId = some .delivered) :
    Follows p orderId caller (fun _ workshop => workshop.Did caller deed) (fun workshop => workshop.Did caller deed)
      (fun workshop => workshop.Did caller deed) (publish p orderId caller attempt) := by
  have hStable : Stable (Sound p orderId) (Rely orderId caller) fun workshop : Workshop Caller =>
      workshop.Did caller deed := stable_deeds fun did => did deed
  have hFile : ∀ envelope, Stable (Sound p orderId) (Rely orderId caller) fun workshop : Workshop Caller =>
      workshop.Did caller deed ∧ workshop.envelope? = some envelope := by
    rintro envelope before after sound - rely ⟨hDeed, hEnvelope⟩
    refine ⟨(rely.deeds deed).mpr hDeed, ?_⟩
    rw [envelope?, rely.file (hDelivered before sound hDeed)]
    exact hEnvelope
  unfold publish
  split
  case isFalse => exact .ended fun _ _ => id
  apply Outline.andThen
  · refine follows_reading (fun workshop envelope _ hDeed h => ⟨hDeed, ?_⟩) (fun _ _ _ hDeed _ => hDeed)
      hFile hStable
    simp only [Except.bind_eq_ok_iff, Except.ofOption_eq_ok_iff] at h
    obtain ⟨_, -, h⟩ := h
    exact h
  intro envelope
  refine follows_once ?_ (fun _ => hStable) hStable
  rintro workshop sound ⟨hDeed, hEnvelope⟩
  rcases publishEnvelope_cases p orderId caller attempt envelope workshop with ⟨error, hEnd⟩ | ⟨access, _, -, hEnd⟩
  · exact Or.inl ⟨error, hEnd, hDeed⟩
  · refine Or.inr ⟨(), _, hEnd, (sound.access access).log ⟨hDelivered workshop sound hDeed, hEnvelope⟩, ?_, ?_⟩
    · exact guarantee_log (fun _ _ => did_log) rfl rfl (fun h => by cases h) (Or.inr (Or.inl ⟨deed, hDeed⟩))
    · exact did_log.mpr (Or.inl hDeed)

/-- What a call has come to when its body raises. -/
def Broken (orderId : String) (caller : Caller) (workshop : Workshop Caller) : Prop :=
  Working orderId caller workshop ∨ workshop.Did caller .delivered

theorem follows_produce (job : String) : Follows p orderId caller (fun _ workshop => workshop.Did caller .delivered)
    (Working orderId caller) (Opened orderId caller) (produce p orderId caller attempt job) := by
  unfold produce
  refine (follows_begin job).andThen fun _ => ?_
  refine follows_request.andThen fun _ => ?_
  apply Outline.andThen
  · exact follows_check (fun _ _ unsigned => unsigned) fun _ unsigned => unsigned.working
  intro _
  refine follows_work.andThen fun _ => ?_
  refine follows_sign.andThen fun signing => ?_
  refine (follows_costs job signing.envelope).andThen fun _ => ?_
  apply Outline.andThen
  · exact follows_check (fun _ _ signed => signed) fun _ signed => signed.working
  exact fun _ => follows_deliver job signing

theorem follows_body (job : String) : Follows p orderId caller (fun _ workshop => workshop.Did caller .delivered)
    (Broken orderId caller) (Opened orderId caller) (do
      let delivered ← produce p orderId caller attempt job
      publish p orderId caller attempt
      return delivered) := by
  apply Outline.andThen
  · refine (follows_produce job).conclude fun outcome workshop _ h => ?_
    cases outcome with
    | ok _ => exact h
    | error _ => exact Or.inl h
  intro _
  apply Outline.andThen
  · refine (follows_publish fun workshop sound h => (sound.delivered h).2.1).conclude fun outcome workshop _ h => ?_
    cases outcome with
    | ok _ => exact h
    | error _ => exact Or.inr h
  exact fun _ => .ended fun _ _ => id

/-- What the handler reads: the order is delivered, or the call is still at work on it. -/
def Reviewed (orderId : String) (caller : Caller) (order : OrderView) (workshop : Workshop Caller) : Prop :=
  Working orderId caller workshop ∧ (order.orderStatus = .queued ∨ order.orderStatus = .running) ∨
    workshop.Did caller .delivered ∧ order.orderStatus = .delivered

/-- The handler's read fails only where the attempt says so, as the order is stored. -/
theorem follows_review : Follows p orderId caller (Reviewed orderId caller) (fun _ => ¬attempt.Handles)
    (Broken orderId caller) (.once (.reading fun workshop => do
      attempt.reaches .review
      workshop.shop.commerce.getOrder orderId)) := by
  refine follows_reading ?_ ?_ ?_ fun _ _ _ _ _ => id
  · intro workshop order sound broken h
    simp only [Except.bind_eq_ok_iff] at h
    obtain ⟨_, -, h⟩ := h
    have hStatus := (status_of_getOrder h).1
    rcases broken with working | hDelivered
    · refine Or.inl ⟨working, ?_⟩
      rcases working.underway with hQueued | hRunning
      · exact Or.inl (Option.some.inj (hStatus.symm.trans hQueued))
      · exact Or.inr (Option.some.inj (hStatus.symm.trans hRunning))
    · exact Or.inr ⟨hDelivered, Option.some.inj (hStatus.symm.trans (sound.delivered hDelivered).2.1)⟩
  · intro workshop error sound broken h handles
    have hStored : ∃ order, workshop.shop.commerce.order? orderId = some order := by
      rcases broken with working | hDelivered
      · obtain ⟨status, hStatus, -⟩ := working.underway.past
        obtain ⟨order, hOrder, -⟩ := Option.map_eq_some_iff.mp hStatus
        exact ⟨order, hOrder⟩
      · obtain ⟨order, hOrder, -⟩ := Option.map_eq_some_iff.mp (sound.delivered hDelivered).2.1
        exact ⟨order, hOrder⟩
    obtain ⟨order, hOrder⟩ := hStored
    obtain ⟨view, hView, -⟩ := Commerce.orderView_returns hOrder
    rw [← Commerce.getOrder_eq_orderView] at hView
    simp only [Attempt.reaches, handles.review, hView, bind, Except.bind] at h
    cases h
  · rintro order before after - - rely (⟨working, hStatus⟩ | ⟨hDelivered, hStatus⟩)
    · exact Or.inl ⟨working.later rely, hStatus⟩
    · exact Or.inr ⟨(rely.deeds _).mpr hDelivered, hStatus⟩

/-- An order that is under way is failed, where the attempt lets it. -/
theorem follows_fail (job : String) {order : OrderView}
    (hUnderway : order.orderStatus = .queued ∨ order.orderStatus = .running) :
    Follows p orderId caller (fun _ => Settled attempt orderId caller) (fun _ => ¬attempt.Handles)
      (Reviewed orderId caller order) (.once (failFulfillment p orderId attempt job)) := by
  refine follows_once ?_ (fun _ => stable_settled) fun _ _ _ _ _ => id
  rintro workshop sound (⟨working, -⟩ | ⟨-, hStatus⟩)
  · rcases commerceCall_cases attempt .fail (fun db => db.failFulfillment p orderId ("job_" ++ job)
      (p.timestamp (attempt.utcNow .fail))) workshop with ⟨error, hEnd, hFails⟩ | ⟨commerce, view, hFail, hEnd⟩
    · refine Or.inl ⟨error, hEnd, fun handles => ?_⟩
      obtain ⟨result, hReturns⟩ := failFulfillment_returns (p := p) working.underway ("job_" ++ job)
        (attempt.utcNow .fail)
      rw [hFails handles.fail] at hReturns
      cases hReturns
    · have leaves := leaves_of_fail sound hFail
      refine Or.inr ⟨view, _, hEnd, leaves.sound sound (by simp [OrderStatus.Past]) ?_,
        working.guarantee (fun _ _ => Iff.rfl) leaves.payment, ?_⟩
      · exact fun h => absurd h working.underway.not_delivered
      · exact fun _ _ => Or.inr ⟨leaves.status, working.undelivered⟩
  · rw [hStatus] at hUnderway
    rcases hUnderway with h | h <;> cases h

/-- The handler fails an order that is not delivered, and raises only where its store calls fail. -/
theorem follows_recover (job : String) : Follows p orderId caller (fun _ => Settled attempt orderId caller)
    (fun _ => ¬attempt.Handles) (Broken orderId caller) (recover p orderId attempt job) := by
  unfold recover
  refine follows_review.andThen fun order => ?_
  split
  · next hUnderway => exact (follows_fail job hUnderway).andThen fun _ => .ended fun _ _ => id
  · next hOther =>
      refine .ended ?_
      rintro workshop sound (⟨-, hStatus⟩ | ⟨hDelivered, -⟩)
      · exact absurd hStatus hOther
      · exact fun _ _ => Or.inl ⟨(sound.delivered hDelivered).2.1, hDelivered⟩

theorem settled_of_delivered (sound : Sound p orderId workshop) (hDelivered : workshop.Did caller .delivered) :
    Settled attempt orderId caller workshop :=
  fun _ _ => Or.inl ⟨(sound.delivered hDelivered).2.1, hDelivered⟩

theorem follows_pursue (job : String) : Follows p orderId caller
    (fun _ => Settled attempt orderId caller) (Settled attempt orderId caller) (Opened orderId caller)
    (pursue p orderId caller attempt job) := by
  unfold pursue
  have hBody : Follows p orderId caller (fun _ => Settled attempt orderId caller) (Broken orderId caller)
      (Opened orderId caller) (do
        let delivered ← produce p orderId caller attempt job
        publish p orderId caller attempt
        return delivered) := by
    refine (follows_body job).conclude fun outcome workshop sound h => ?_
    cases outcome with
    | ok _ => exact settled_of_delivered sound h
    | error _ => exact h
  refine hBody.rescue fun error => ?_
  apply Outline.andThen
  · exact (follows_recover job).rescue fun _ => .ended fun _ _ h handles => absurd handles h
  · exact fun _ => .ended fun _ _ => id

/-- A call that has made nothing but an entry of its own is settled. -/
theorem settled_of_deeds (h : ¬workshop.Did caller .began) : Settled attempt orderId caller workshop :=
  fun _ hBegan => absurd hBegan h

/-- Whatever the other calls do, a call that ends has left the order delivered or
failed, if it has begun at all. -/
theorem follows_fulfill : Follows p orderId caller (fun _ => Settled attempt orderId caller)
    (Settled attempt orderId caller) (Fresh caller) (fulfill p orderId caller attempt) := by
  have hAdmitted : ∀ workshop : Workshop Caller, Admitted orderId caller workshop → Settled attempt orderId caller workshop := by
    intro workshop admitted
    apply settled_of_deeds
    intro hBegan
    cases (admitted.deeds _).mp hBegan
  have hOpened : ∀ workshop : Workshop Caller, Opened orderId caller workshop → Settled attempt orderId caller workshop := by
    intro workshop opened
    apply settled_of_deeds
    intro hBegan
    rcases (opened.deeds _).mp hBegan with h | h <;> cases h
  have hFound : ∀ workshop : Workshop Caller, Sound p orderId workshop → workshop.Did caller .foundDelivered →
      Settled attempt orderId caller workshop := by
    intro workshop sound hFound
    apply settled_of_deeds
    intro hBegan
    rcases (sound.found hFound).2 _ hBegan with h | ⟨_, h⟩ <;> cases h
  unfold fulfill
  apply Outline.andThen
  · refine follows_assess.conclude fun outcome workshop _ h => ?_
    cases outcome with
    | ok _ => exact h
    | error _ => exact settled_of_deeds (h _)
  intro order
  split
  · next hDelivered =>
      apply Outline.andThen
      · have hPublish : Follows p orderId caller (fun _ workshop => workshop.Did caller .foundDelivered)
            (Settled attempt orderId caller) (fun workshop => workshop.Did caller .foundDelivered)
            (publish p orderId caller attempt) := by
          refine (follows_publish fun workshop sound h => (sound.found h).1).conclude
            fun outcome workshop sound h => ?_
          cases outcome with
          | ok _ => exact h
          | error _ => exact hFound workshop sound h
        refine hPublish.weaken ?_
        rintro workshop - (⟨-, h⟩ | ⟨hOther, -⟩)
        · exact h
        · exact absurd hDelivered hOther
      · exact fun _ => .ended fun workshop sound h => hFound workshop sound h
  · next hOther =>
      have hEntry : ∀ workshop : Workshop Caller, Sound p orderId workshop →
          (order.orderStatus = .delivered ∧ workshop.Did caller .foundDelivered ∨
            order.orderStatus ≠ .delivered ∧ Admitted orderId caller workshop) → Admitted orderId caller workshop := by
        rintro workshop - (⟨h, -⟩ | ⟨-, admitted⟩)
        · exact absurd h hOther
        · exact admitted
      apply Outline.andThen
      · have hLook : Follows p orderId caller (fun _ => Admitted orderId caller) (Settled attempt orderId caller)
            (Admitted orderId caller) (.once requireNoDirectory) :=
          follows_reading (fun _ _ _ admitted _ => admitted)
            (fun workshop _ _ admitted _ => hAdmitted workshop admitted) (fun _ => stable_admitted) stable_settled
        exact hLook.weaken hEntry
      intro _
      apply Outline.andThen
      · refine follows_directory.conclude fun outcome workshop _ h => ?_
        cases outcome with
        | ok _ => exact h
        | error _ => exact hAdmitted workshop h
      intro _
      apply Outline.andThen
      · exact follows_check (fun _ _ opened => opened) hOpened
      exact fun job => follows_pursue job

end Fulfillment

end VouchSpec
