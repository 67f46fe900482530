import VouchSpec.Fulfillment.Exclusive
import VouchSpec.Signing.RoundTrip
import VouchSpec.StageB.Gate

/-! From a delivered order to its result. The limits of the signer and of the access
store meet in the envelope, which is longer than the receipt in it. -/

namespace VouchSpec

/-- A returning delivery leaves the order with the digest of its evidence. -/
theorem Commerce.deliver_evidence {p : Platform} {db after : Commerce} {orderId : String} {evidence : Evidence}
    {sourceReference occurredAt : String} {view : OrderView}
    (h : db.deliver p orderId evidence sourceReference occurredAt = .ok (after, view)) :
    ∃ order, after.order? orderId = some order ∧ order.orderStatus = .delivered ∧
      order.envelopeSha256 = some evidence.envelopeSha256 := by
  rcases deliver_acts h with ⟨-, found, hFound, hStatus⟩ | ⟨order, acts⟩
  · unfold deliver at h
    simp only [Except.bind_eq_ok_iff, requireOrder_eq_ok, require_eq_ok] at h
    obtain ⟨_, -, _, -, _, -, _, -, _, -, order, hOrder, _, -, hRest⟩ := h
    obtain rfl := Option.some.inj (hFound.symm.trans hOrder)
    rw [if_pos hStatus] at hRest
    simp only [Except.bind_eq_ok_iff, Except.pure_eq_ok_iff, require_eq_ok, Prod.mk.injEq] at hRest
    obtain ⟨_, hBound, _, -, rfl, -⟩ := hRest
    exact ⟨found, hOrder, hStatus, hBound.2.2.1⟩
  · have hAfter := acts.affects.order? orderId
    rw [if_pos rfl, acts.stored, Option.map_some] at hAfter
    exact ⟨_, hAfter, rfl, rfl⟩

namespace Access

variable {p : Platform} {keyring : Keyring} {access : Access} {tenantId orderId token : String} {now : Option DateTime}
  {utcNow : Int}

/-- What a holder of the credentials gets is the stored body. -/
theorem getResult_eq_ok {body : Bytes} : access.getResult p keyring tenantId orderId token now utcNow = .ok body ↔
    (∃ authorization, access.authorizeOrder p keyring tenantId orderId token now utcNow = .ok authorization) ∧
      ∃ binding result, access.orderBinding? orderId = some binding ∧ binding.tenantId = tenantId ∧
        binding.result = some result ∧ result.body = body := by
  simp only [getResult, Except.bind_eq_ok_iff, Except.ofOption_eq_ok_iff, Except.pure_eq_ok_iff,
    Option.bind_eq_some_iff, Option.filter_eq_some_iff, decide_eq_true_eq]
  constructor
  · rintro ⟨authorization, hAuthorized, result, ⟨binding, ⟨hBinding, hTenant⟩, hResult⟩, hBody⟩
    exact ⟨⟨authorization, hAuthorized⟩, binding, result, hBinding, hTenant, hResult, hBody⟩
  · rintro ⟨⟨authorization, hAuthorized⟩, binding, result, hBinding, hTenant, hResult, hBody⟩
    exact ⟨authorization, hAuthorized, result, ⟨binding, ⟨hBinding, hTenant⟩, hResult⟩, hBody⟩

theorem tenantId_of_authorized {authorization : Authorization} {binding : OrderBinding}
    (h : access.authorizeOrder p keyring tenantId orderId token now utcNow = .ok authorization)
    (hBinding : access.orderBinding? orderId = some binding) : binding.tenantId = tenantId := by
  simp only [authorizeOrder, boundOrder?, Except.bind_eq_ok_iff, Except.ofOption_eq_ok_iff,
    Option.filter_eq_some_iff, decide_eq_true_eq] at h
  obtain ⟨_, -, _, -, row, ⟨hRow, hTenant, -⟩, -⟩ := h
  obtain rfl := Option.some.inj (hBinding.symm.trans hRow)
  exact hTenant

/-- A publication leaves the order with its envelope. -/
theorem result_of_publishResult {db : Commerce} {later : Access} {envelope : Bytes} {digest : String}
    (h : access.publishResult p db orderId envelope none utcNow = .ok (later, digest)) :
    envelope.length ≤ maxResultBytes ∧ ∃ binding, later.orderBinding? orderId = some binding ∧
      binding.result = some ⟨bodyDigest p envelope, envelope⟩ := by
  obtain ⟨-, ⟨-, hSize⟩, -, -, -, row, hRow, ⟨hResult, rfl⟩ | ⟨-, orderBindings, hRows, rfl⟩⟩ :=
    publishResult_eq_ok.mp h
  · exact ⟨hSize, row, hRow, hResult⟩
  · have hChanged := @orderBinding?_changed access orderBindings orderId _ hRows (fun _ => rfl) orderId
    rw [hRow, Option.map_some, if_pos (orderBinding?_eq_some.mp hRow).2] at hChanged
    exact ⟨hSize, _, hChanged, rfl⟩

end Access

namespace Fulfillment

open Workshop Access Program
open VouchSpec.Signing (signDssePayload receiptPayloadType maxReceiptBytes signReceiptBytes jsonLine_length)

variable {Caller : Type} {p : Platform} {keyring : Keyring} {orderId : String} {caller : Caller} {attempt : Attempt}
  {workshop after : Workshop Caller}

/-- What a step of a call does to the shop, beside what it notes of it. -/
structure Performs (p : Platform) (keyring : Keyring) (orderId : String) (attempt : Attempt) (caller : Caller)
    (before after : Workshop Caller) : Prop where
  shop : after.shop = before.shop ∨ ∃ call event, before.shop.perform p keyring call = .ok (after.shop, event)
  signed : ∀ envelope, after.Did caller (.signed envelope) →
    before.Did caller (.signed envelope) ∨ envelope = attempt.signing.envelope
  delivered : after.Did caller .delivered →
    before.Did caller .delivered ∨ Deliverable p after.shop.commerce orderId attempt.signing.envelope
  access : after.shop.access = before.shop.access ∨ ∃ envelope digest, after.Did caller (.published envelope) ∧
    before.shop.access.publishResult p before.shop.commerce orderId envelope none (attempt.utcNow .publish) =
      .ok (after.shop.access, digest)

/-- A step that notes at most one deed, and commits at most one call of the commerce store. -/
theorem performs_note {new : Deed} (hDeeds : ∀ deed, after.Did caller deed → workshop.Did caller deed ∨ deed = new)
    (hNew : new ≠ .delivered) (hSigned : ∀ envelope, new = .signed envelope → envelope = attempt.signing.envelope)
    (hShop : after.shop = workshop.shop ∨ ∃ call commerce, workshop.shop.commerce.committed p call = .ok commerce ∧
      after.shop = { workshop.shop with commerce }) : Performs p keyring orderId attempt caller workshop after where
  shop := by
    rcases hShop with hSame | ⟨call, commerce, hCommitted, hShop⟩
    · exact Or.inl hSame
    · refine Or.inr ⟨.commerce call, .committed, ?_⟩
      rw [Shop.perform, hCommitted, hShop]
      rfl
  signed envelope hDid := (hDeeds _ hDid).imp id fun h => hSigned envelope h.symm
  delivered hDid := (hDeeds _ hDid).imp id fun h => absurd h.symm hNew
  access := by
    rcases hShop with hSame | ⟨_, _, -, hShop⟩
    · exact Or.inl (congrArg Shop.access hSame)
    · left
      rw [hShop]

theorem performs_same (hShop : after.shop = workshop.shop) (hDeeds : ∀ deed, after.Did caller deed → workshop.Did caller deed) :
    Performs p keyring orderId attempt caller workshop after :=
  @performs_note _ _ _ _ _ _ _ _ .admitted (fun deed h => Or.inl (hDeeds deed h)) (by simp) (fun _ h => by cases h)
    (Or.inl hShop)

/-- A step that notes one deed and leaves the shop as it is. -/
theorem performs_log {new : Deed} (hNew : new ≠ .delivered)
    (hSigned : ∀ envelope, new = .signed envelope → envelope = attempt.signing.envelope) (hShop : after.shop = workshop.shop)
    (hJournal : after.journal = workshop.journal) :
    Performs p keyring orderId attempt caller workshop (after.log caller new) := by
  refine performs_note (fun deed hDid => ?_) hNew hSigned (Or.inl hShop)
  rcases did_log.mp hDid with hOld | ⟨-, hSame⟩
  · left
    rw [Did, hJournal] at hOld
    exact hOld
  · exact Or.inr hSame

/-- A transaction of the commerce store. -/
theorem performs_commerceCall {Value : Type} {stage : Stage} {body : Commerce → Except Raised (Commerce × Value)}
    (hBody : ∀ commerce value, body workshop.shop.commerce = .ok (commerce, value) →
      ∃ call, workshop.shop.commerce.committed p call = .ok commerce) :
    Performs p keyring orderId attempt caller workshop (commerceCall attempt stage body workshop).2 := by
  rcases commerceCall_cases attempt stage body workshop with ⟨error, hEnd, -⟩ | ⟨commerce, value, hReturns, hEnd⟩
  · rw [hEnd]
    exact performs_same rfl fun _ => id
  · obtain ⟨call, hCommitted⟩ := hBody commerce value hReturns
    rw [hEnd]
    exact @performs_note _ _ _ _ _ _ _ _ .admitted (fun deed h => Or.inl h) (by simp) (fun _ h => by cases h)
      (Or.inr ⟨call, commerce, hCommitted, rfl⟩)

theorem performs_assess : Performs p keyring orderId attempt caller workshop (assess orderId caller attempt workshop).2 := by
  rcases assess_cases orderId caller attempt workshop with ⟨error, hEnd⟩ | ⟨order, -, ⟨-, hEnd⟩ | ⟨-, -, hEnd⟩⟩
  · rw [hEnd]
    exact performs_same rfl fun _ => id
  · rw [hEnd]
    exact performs_log (by simp) (fun _ h => by cases h) rfl rfl
  · rw [hEnd]
    exact performs_log (by simp) (fun _ h => by cases h) rfl rfl

theorem performs_makeDirectory :
    Performs p keyring orderId attempt caller workshop (makeDirectory caller attempt workshop).2 := by
  rcases makeDirectory_cases caller attempt workshop with ⟨error, hEnd⟩ | ⟨-, hEnd⟩
  · rw [hEnd]
    exact performs_same rfl fun _ => id
  · rw [hEnd]
    exact performs_log (by simp) (fun _ h => by cases h) rfl rfl

theorem performs_begin {job : String} :
    Performs p keyring orderId attempt caller workshop (begin p orderId caller attempt job workshop).2 := by
  change Performs _ _ _ _ _ _ (commerceCall _ _ _ (workshop.log caller .began)).2
  rcases commerceCall_cases attempt .begin (fun db => db.beginFulfillment p orderId ("job_" ++ job)
    (p.timestamp (attempt.utcNow .begin))) (workshop.log caller .began) with
    ⟨error, hEnd, -⟩ | ⟨commerce, view, hBegin, hEnd⟩
  · rw [hEnd]
    exact performs_log (by simp) (fun _ h => by cases h) rfl rfl
  · rw [hEnd]
    have hDeeds : ∀ deed, ((workshop.log caller .began).commit commerce).Did caller deed →
        workshop.Did caller deed ∨ deed = .began := by
      intro deed hDid
      rw [did_commit, did_log] at hDid
      exact hDid.imp id And.right
    refine performs_note hDeeds (by simp) (fun _ h => by cases h) (Or.inr ⟨.beginFulfillment orderId ("job_" ++ job)
      (p.timestamp (attempt.utcNow .begin)), commerce, ?_, rfl⟩)
    exact congrArg (Functor.map Prod.fst) hBegin

theorem performs_work : Performs p keyring orderId attempt caller workshop (work caller attempt workshop).2 := by
  have hAfter : (work caller attempt workshop).2 = workshop.log caller .worked := by
    unfold work
    cases hReaches : attempt.reaches .work <;> simp [bind, note, Routine.reading]
  rw [hAfter]
  exact performs_log (by simp) (fun _ h => by cases h) rfl rfl

theorem performs_sign : Performs p keyring orderId attempt caller workshop (sign caller attempt workshop).2 := by
  unfold sign
  cases attempt.fault .sign with
  | some error =>
      cases attempt.leftover with
      | none => exact performs_same rfl fun _ => id
      | some envelope => exact performs_same rfl fun _ => id
  | none => exact performs_log (by simp) (fun _ h => (Deed.signed.inj h).symm) rfl rfl

/-- The signer reports the digest of what it writes. -/
def Signing.Reports (p : Platform) (signing : Signing) : Prop :=
  signing.evidence.envelopeSha256 = bodyDigest p signing.envelope

theorem performs_deliver {job : String} (hReports : attempt.signing.Reports p) :
    Performs p keyring orderId attempt caller workshop
      (deliver p orderId caller attempt job attempt.signing workshop).2 := by
  rcases commerceCall_cases attempt .deliver (fun db => db.deliver p orderId attempt.signing.evidence ("job_" ++ job)
    (p.timestamp (attempt.utcNow .deliver))) workshop with ⟨error, hEnd, -⟩ | ⟨commerce, view, hDeliver, hEnd⟩
  · have hSame : (deliver p orderId caller attempt job attempt.signing workshop).2 = workshop := by
      simp [deliver, bind, hEnd]
    rw [hSame]
    exact performs_same rfl fun _ => id
  have hAfter : (deliver p orderId caller attempt job attempt.signing workshop).2 =
      (workshop.commit commerce).log caller .delivered := by
    simp [deliver, bind, hEnd, note, pure]
  have hCommitted : workshop.shop.commerce.committed p (.deliver orderId attempt.signing.evidence ("job_" ++ job)
      (p.timestamp (attempt.utcNow .deliver))) = .ok commerce := congrArg (Functor.map Prod.fst) hDeliver
  rw [hAfter]
  refine ⟨Or.inr ⟨.commerce (.deliver orderId attempt.signing.evidence ("job_" ++ job)
    (p.timestamp (attempt.utcNow .deliver))), .committed, ?_⟩, ?_, ?_, Or.inl rfl⟩
  · rw [Shop.perform, hCommitted]
    rfl
  · intro envelope hDid
    rcases did_log.mp hDid with hOld | ⟨-, hSame⟩
    · exact Or.inl hOld
    · cases hSame
  · intro _
    obtain ⟨order, hOrder, hStatus, hDigest⟩ := Commerce.deliver_evidence hDeliver
    rw [hReports] at hDigest
    exact Or.inr ⟨order, hOrder, hStatus, hDigest⟩

theorem performs_publishEnvelope {envelope : Bytes} : Performs p keyring orderId attempt caller workshop
    (publishEnvelope p orderId caller attempt envelope workshop).2 := by
  rcases publishEnvelope_cases p orderId caller attempt envelope workshop with
    ⟨error, hEnd⟩ | ⟨access, digest, hPublish, hEnd⟩
  · rw [hEnd]
    exact performs_same rfl fun _ => id
  rw [hEnd]
  refine ⟨Or.inr ⟨.publishResult orderId envelope none (attempt.utcNow .publish), .committed, ?_⟩, ?_, ?_, ?_⟩
  · rw [Shop.perform, hPublish]
    rfl
  · intro other hDid
    rcases did_log.mp hDid with hOld | ⟨-, hSame⟩
    · exact Or.inl hOld
    · cases hSame
  · intro hDid
    rcases did_log.mp hDid with hOld | ⟨-, hSame⟩
    · exact Or.inl hOld
    · cases hSame
  · exact Or.inr ⟨envelope, digest, did_log.mpr (Or.inr ⟨rfl, rfl⟩), hPublish⟩

theorem performs_refl (workshop : Workshop Caller) : Performs p keyring orderId attempt caller workshop workshop :=
  performs_same rfl fun _ => id

theorem performs_publish : (publish p orderId caller attempt).Follows (Performs p keyring orderId attempt caller) := by
  unfold publish
  split
  · exact .andThen (.once performs_refl) fun envelope => .once fun _ => performs_publishEnvelope
  · exact .ended _

theorem performs_produce {job : String} (hReports : attempt.signing.Reports p) :
    (produce p orderId caller attempt job).Follows (Performs p keyring orderId attempt caller) := by
  refine .andThen (.once fun _ => performs_begin) fun _ => ?_
  refine .andThen (.once performs_refl) fun _ => ?_
  refine .andThen (.check _) fun _ => ?_
  refine .andThen (.once fun _ => performs_work) fun _ => ?_
  refine .onceThen (fun _ => performs_sign) fun workshop signing hSigning => ?_
  have hSame : signing = attempt.signing := by
    unfold sign at hSigning
    cases hFault : attempt.fault .sign with
    | some error =>
        rw [hFault] at hSigning
        cases hSigning
    | none =>
        rw [hFault] at hSigning
        exact (Except.ok.inj hSigning).symm
  refine .andThen (.once fun _ => performs_commerceCall fun commerce value h => ?_) fun _ => ?_
  · exact ⟨.recordDirectCosts orderId attempt.directCosts ("cost_" ++ job) (some (p.timestamp (attempt.utcNow .costs)))
      (attempt.utcNow .costs), congrArg (Functor.map Prod.fst) h⟩
  refine .andThen (.check _) fun _ => ?_
  rw [hSame]
  exact .once fun _ => performs_deliver hReports

theorem performs_recover {job : String} :
    (recover p orderId attempt job).Follows (Performs p keyring orderId attempt caller) := by
  refine .andThen (.once performs_refl) fun current => ?_
  split
  · refine .andThen (.once fun _ => performs_commerceCall fun commerce value h => ?_) fun _ => .ended _
    exact ⟨.failFulfillment orderId ("job_" ++ job) (p.timestamp (attempt.utcNow .fail)),
      congrArg (Functor.map Prod.fst) h⟩
  · exact .ended _

/-- Every step of a call is one of these, when its signer reports what it writes. -/
theorem performs_fulfill (hReports : attempt.signing.Reports p) :
    (fulfill p orderId caller attempt).Follows (Performs p keyring orderId attempt caller) := by
  refine .andThen (.once fun _ => performs_assess) fun order => ?_
  split
  · exact .andThen performs_publish fun _ => .ended _
  refine .andThen (.once performs_refl) fun _ => ?_
  refine .andThen (.once fun _ => performs_makeDirectory) fun _ => ?_
  refine .andThen (.check _) fun job => ?_
  refine .rescue (.andThen (performs_produce hReports) fun _ => .andThen performs_publish fun _ => .ended _) fun error => ?_
  exact .andThen (.rescue performs_recover fun _ => .ended _) fun _ => .check _

/-- The stores have only what the calls made: the delivered digest is that of the
signed envelope, and a stored result has been published by a call. -/
structure Faithful (p : Platform) (keyring : Keyring) (orderId : String) (attempts : Caller → Attempt)
    (workshop : Workshop Caller) : Prop where
  reachable : workshop.shop.Reachable p keyring
  signed : ∀ caller envelope, workshop.Did caller (.signed envelope) → envelope = (attempts caller).signing.envelope
  delivered : ∀ caller, workshop.Did caller .delivered →
    Deliverable p workshop.shop.commerce orderId (attempts caller).signing.envelope
  result : ∀ {binding result}, workshop.shop.access.orderBinding? orderId = some binding →
    binding.result = some result →
    result.body.length ≤ maxResultBytes ∧ ∃ caller, workshop.Did caller (.published result.body)

/-- The shop goes on by the calls of its two stores. -/
theorem Performs.reachable (performs : Performs p keyring orderId attempt caller workshop after)
    (reachable : workshop.shop.Reachable p keyring) :
    after.shop.Reachable p keyring ∧ workshop.shop.Continues after.shop := by
  rcases performs.shop with hSame | ⟨call, event, hReturns⟩
  · rw [hSame]
    exact ⟨reachable, .refl _⟩
  · have hStep : workshop.shop.step p keyring call = after.shop := by
      rw [Shop.step, hReturns]
    rw [← hStep]
    exact ⟨reachable.step call, (Shop.step_wellFormed_continues reachable.wellFormed call).2⟩

theorem Faithful.call {attempts : Caller → Attempt} (faithful : Faithful p keyring orderId attempts workshop)
    (guarantee : Guarantee orderId caller workshop after)
    (performs : Performs p keyring orderId (attempts caller) caller workshop after) :
    Faithful p keyring orderId attempts after := by
  obtain ⟨reachable, continues⟩ := performs.reachable faithful.reachable
  refine ⟨reachable, fun other envelope hSigned => ?_, fun other hDelivered => ?_, fun hBinding hResult => ?_⟩
  · by_cases hOther : other = caller
    · subst hOther
      exact (performs.signed envelope hSigned).elim (faithful.signed other envelope) id
    · exact faithful.signed other envelope ((guarantee.others other hOther _).mp hSigned)
  · have hKept : workshop.Did other .delivered → Deliverable p after.shop.commerce orderId (attempts other).signing.envelope :=
      fun hOld => Shop.deliverable_continues continues.commerce faithful.reachable.wellFormed.commerce
        (faithful.delivered other hOld)
    by_cases hOther : other = caller
    · subst hOther
      exact (performs.delivered hDelivered).elim hKept id
    · exact hKept ((guarantee.others other hOther _).mp hDelivered)
  · rcases performs.access with hSame | ⟨envelope, digest, hPublished, hPublish⟩
    · rw [hSame] at hBinding
      obtain ⟨hSize, publisher, hPublished⟩ := faithful.result hBinding hResult
      refine ⟨hSize, publisher, ?_⟩
      by_cases hOther : publisher = caller
      · subst hOther
        exact guarantee.kept _ hPublished
      · exact (guarantee.others publisher hOther _).mpr hPublished
    · obtain ⟨hSize, row, hRow, hStored⟩ := Access.result_of_publishResult hPublish
      obtain rfl := Option.some.inj (hRow.symm.trans hBinding)
      obtain rfl := Option.some.inj (hStored.symm.trans hResult)
      exact ⟨hSize, caller, hPublished⟩

theorem Faithful.ingest {attempts : Caller → Attempt} (faithful : Faithful p keyring orderId attempts workshop)
    (eventValue : Json) (receivedAt : Option String) (utcNow : Int) :
    Faithful p keyring orderId attempts (workshop.ingest p eventValue receivedAt utcNow) := by
  have hStep : (workshop.ingest p eventValue receivedAt utcNow).shop =
      workshop.shop.step p keyring (.commerce (.ingestProviderEvent eventValue receivedAt utcNow)) := by
    simp only [Workshop.ingest, Shop.step, Shop.perform, Commerce.step]
    cases workshop.shop.commerce.committed p (.ingestProviderEvent eventValue receivedAt utcNow) <;> rfl
  have continues := (Shop.step_wellFormed_continues faithful.reachable.wellFormed
    (.commerce (.ingestProviderEvent eventValue receivedAt utcNow))).2
  rw [← hStep] at continues
  refine ⟨hStep ▸ faithful.reachable.step _, faithful.signed, fun caller hDelivered => ?_, faithful.result⟩
  exact Shop.deliverable_continues continues.commerce faithful.reachable.wellFormed.commerce
    (faithful.delivered caller hDelivered)

/-- A call delivers no order that was delivered before it. -/
theorem Late.not_delivered (late : Late orderId caller workshop) (sound : Sound p orderId workshop) :
    ¬workshop.Did caller .delivered := by
  intro hDelivered
  rcases late.deeds with hFresh | hFound
  · exact hFresh _ hDelivered
  · rcases (sound.found hFound).2 _ hDelivered with h | ⟨_, h⟩
    · cases h
    · cases h

section
variable {attempts : Caller → Attempt} {floor : Floor Caller}

/-- The calls are on their course and take no steps but theirs, over faithful stores. -/
structure Floor.Kept (p : Platform) (keyring : Keyring) (orderId : String) (attempts : Caller → Attempt)
    (floor : Floor Caller) : Prop where
  onCourse : floor.OnCourse p orderId attempts
  obeys : floor.Obeys fun caller => Performs p keyring orderId (attempts caller) caller
  faithful : Faithful p keyring orderId attempts floor.state

/-- An order that is not delivered has no result. -/
theorem Floor.kept_opening {shop : Shop} (hReachable : shop.Reachable p keyring) (job : Option Job)
    (hReports : ∀ caller, (attempts caller).signing.Reports p)
    (hOpen : ({ shop, job } : Workshop Caller).status? orderId ≠ some .delivered) :
    (Floor.opening p orderId { shop, job } attempts).Kept p keyring orderId attempts where
  onCourse := Floor.onCourse_opening hReachable.commerce job attempts
  obeys caller := performs_fulfill (hReports caller)
  faithful :=
    { reachable := hReachable
      signed := fun _ _ h => absurd h List.not_mem_nil
      delivered := fun _ h => absurd h List.not_mem_nil
      result := by
        intro binding result hBinding hResult
        have bound := hReachable.wellFormed.orders hBinding
        obtain ⟨order, hOrder, hStatus, -⟩ := (bound.result result hResult).2
        rw [(orderBinding?_eq_some.mp hBinding).2] at hOrder
        exact absurd (Option.map_eq_some_iff.mpr ⟨order, hOrder, hStatus⟩) hOpen }

variable [DecidableEq Caller]

theorem Floor.Kept.step (kept : floor.Kept p keyring orderId attempts) (step : Step Caller) :
    (floor.step p step).Kept p keyring orderId attempts := by
  have onCourse := kept.onCourse.step step
  cases step with
  | event eventValue receivedAt utcNow => exact ⟨onCourse, kept.obeys, kept.faithful.ingest eventValue receivedAt utcNow⟩
  | call caller =>
      obtain ⟨hObeys, hMoved⟩ := Pool.Obeys.advance kept.obeys caller
      refine ⟨onCourse, hObeys, ?_⟩
      rcases hMoved with hSame | hPerforms
      · exact (congrArg Pool.state hSame : (floor.step p (.call caller)).state = floor.state).symm ▸ kept.faithful
      · exact kept.faithful.call (kept.onCourse.call caller).2 hPerforms

theorem Floor.Kept.run (kept : floor.Kept p keyring orderId attempts) (steps : List (Step Caller)) :
    (floor.run p steps).Kept p keyring orderId attempts :=
  Runs.run_invariant (Kept p keyring orderId attempts) (fun _ step kept => Kept.step kept step) kept steps

/-- Where a call has delivered, the stores have only what the calls made. -/
theorem Floor.kept_of_delivered {shop : Shop} (hReachable : shop.Reachable p keyring) (job : Option Job)
    (hReports : ∀ caller, (attempts caller).signing.Reports p) (steps : List (Step Caller))
    (hDelivered : ((Floor.opening p orderId { shop, job } attempts).run p steps).state.Did caller .delivered) :
    ((Floor.opening p orderId { shop, job } attempts).run p steps).Kept p keyring orderId attempts := by
  have onCourse := @Floor.onCourse_opening _ p orderId shop hReachable.commerce job attempts
  by_cases hStatus : ({ shop, job } : Workshop Caller).status? orderId = some .delivered
  · have late : Late orderId caller (Floor.opening p orderId { shop, job } attempts).state :=
      ⟨hStatus, Or.inl fun _ => List.not_mem_nil⟩
    exact absurd hDelivered ((late.run onCourse steps).not_delivered (onCourse.run steps).state)
  · exact (Floor.kept_opening hReachable job hReports hStatus).run steps

end

/-- A call that publishes, none of whose steps raises on its own. -/
structure Attempt.Plain (attempt : Attempt) : Prop where
  publishes : attempt.publishes = true
  fault : ∀ stage, attempt.fault stage = none

/-- A call for a delivered order publishes the file in the order's directory. -/
theorem fulfill_published (plain : attempt.Plain) {order : OrderView} {envelope : Bytes} {access : Access}
    {digest : String} (hOrder : workshop.shop.commerce.getOrder orderId = .ok order)
    (hStatus : order.orderStatus = .delivered) (hFile : workshop.envelope? = some envelope)
    (hPublish : workshop.shop.access.publishResult p workshop.shop.commerce orderId envelope none
      (attempt.utcNow .publish) = .ok (access, digest)) :
    ∃ after, (fulfill p orderId caller attempt).run workshop = (.ok order, after) ∧ after.shop.access = access := by
  have hFound : assess orderId caller attempt workshop = (.ok order, workshop.log caller .foundDelivered) := by
    simp [assess, bind, Routine.reading, hOrder, hStatus, note, pure]
  have hRead : readEnvelope attempt (workshop.log caller .foundDelivered) =
      (.ok envelope, workshop.log caller .foundDelivered) := by
    have hJob : (workshop.log caller .foundDelivered).job.bind Job.envelope = some envelope := hFile
    simp [readEnvelope, Routine.reading, Attempt.reaches, plain.fault, hJob, Except.ofOption, bind, Except.bind]
  have hPublished : publishEnvelope p orderId caller attempt envelope (workshop.log caller .foundDelivered) =
      (.ok (), ({ workshop.log caller .foundDelivered with shop := { workshop.shop with access } } : Workshop Caller).log
        caller (.published envelope)) := by
    simp [publishEnvelope, Routine.transaction, Attempt.reaches, plain.fault, Workshop.log, hPublish, bind, Except.bind,
      pure, Except.pure, note]
  refine ⟨({ workshop.log caller .foundDelivered with shop := { workshop.shop with access } } : Workshop Caller).log
    caller (.published envelope), ?_, rfl⟩
  simp only [fulfill, publish, plain.publishes, if_true, run_bind, run_once]
  simp [bind, hFound, hStatus, run_andThen, hRead, hPublished, pure, run]

section
variable {Key : Type} {t : Toolkit} {scheme : Ed25519 Key} {receipt : Bytes}

/-- The signer makes the line of an envelope over the receipt, and reports its digest. -/
structure Attempt.Signs (t : Toolkit) (scheme : Ed25519 Key) (receipt : Bytes) (attempt : Attempt) : Prop where
  envelope : ∃ key envelope, signDssePayload t scheme receiptPayloadType receipt key maxReceiptBytes = .ok envelope ∧
    attempt.signing.envelope = jsonLine envelope
  reports : attempt.signing.Reports t.toPlatform

/-- The signing gate signs so, and its summary reports the digest. -/
theorem Attempt.signs_of_approve {schema : VouchSpec.Signing.Schema} {u : Inspection.Unicode} {milliseconds : Int → Int}
    {directory : StageB.FrozenDirectory} {times : Inspection.CaptureTimes} {output : StageB.WorkerOutput}
    {signer : StageB.Signer Key} {approved : StageB.Approved} {keyid : String}
    (h : StageB.approve t scheme schema u milliseconds directory times output signer = .ok approved)
    (hEnvelope : attempt.signing.envelope = approved.envelopeBytes)
    (hReported : (StageB.summary t approved keyid).member "envelope_sha256" = .str attempt.signing.evidence.envelopeSha256) :
    attempt.Signs t scheme approved.receiptBytes := by
  simp only [StageB.approve, signReceiptBytes, Except.bind_eq_ok_iff, Except.pure_eq_ok_iff, Prod.exists] at h
  obtain ⟨_, -, _, -, receipt, -, _, -, _, -, _, -, _, -, _, -, _, -, _, -, _, -, _, -, envelope, ⟨_, -, _, -, hSigned⟩,
    _, _, -, _, -, rfl⟩ := h
  refine ⟨⟨signer.privateKey, envelope, hSigned, hEnvelope⟩, ?_⟩
  rw [Signing.Reports, hEnvelope]
  exact (Json.str.inj hReported).symm

/-- The largest receipt whose envelope can be published. -/
def maxPublishedReceipt : Nat := 749811

theorem Attempt.Signs.length (signs : attempt.Signs t scheme receipt) :
    1 ≤ attempt.signing.envelope.length ∧
      (attempt.signing.envelope.length ≤ maxResultBytes ↔ receipt.length ≤ maxPublishedReceipt) := by
  obtain ⟨key, envelope, hSigned, hEnvelope⟩ := signs.envelope
  have hLength := jsonLine_length (VouchSpec.Signing.Profile.safe .receipt) hSigned
  have hType : VouchSpec.Signing.Profile.receipt.payloadType.toList.length = 52 := by decide
  rw [hType] at hLength
  simp only [hEnvelope, hLength, maxResultBytes, maxPublishedReceipt]
  omega

end

/-- Whoever the order's credentials authorize gets the envelope. -/
def Retrievable (p : Platform) (keyring : Keyring) (orderId : String) (envelope : Bytes) (access : Access) : Prop :=
  ∀ tenantId token now utcNow authorization,
    access.authorizeOrder p keyring tenantId orderId token now utcNow = .ok authorization →
      access.getResult p keyring tenantId orderId token now utcNow = .ok envelope

/-- What becomes of a delivered order's receipt: a small one can be published, and is then
what the tenant gets; the envelope of a large one never is. -/
structure Retrieval [DecidableEq Caller] (p : Platform) (keyring : Keyring) (orderId : String) (receipt envelope : Bytes)
    (floor : Floor Caller) : Prop where
  fits : receipt.length ≤ maxPublishedReceipt → ∀ other (attempt : Attempt), attempt.Plain →
    ∃ order after, (fulfill p orderId other attempt).run floor.state = (.ok order, after) ∧
      Retrievable p keyring orderId envelope after.shop.access
  exceeds : maxPublishedReceipt < receipt.length → ∀ further tenantId token now utcNow body,
    (floor.run p further).state.shop.access.getResult p keyring tenantId orderId token now utcNow ≠ .ok body

/-- The result of a delivered order is what its caller signed. -/
theorem Faithful.result_eq {attempts : Caller → Attempt} (faithful : Faithful p keyring orderId attempts workshop)
    (sound : Sound p orderId workshop) (hDelivered : workshop.Did caller .delivered) {binding : OrderBinding}
    {result : Result} (hBinding : workshop.shop.access.orderBinding? orderId = some binding)
    (hResult : binding.result = some result) : result.body = (attempts caller).signing.envelope := by
  obtain ⟨-, -, envelope, hSigned⟩ := sound.delivered hDelivered
  obtain rfl := faithful.signed caller envelope hSigned
  obtain ⟨-, publisher, hPublished⟩ := faithful.result hBinding hResult
  exact Option.some.inj ((sound.published hPublished).2.symm.trans (sound.signed hSigned).2)

/-- Publishing the envelope of a delivered order that is bound to a tenant succeeds if it is small enough. -/
theorem Faithful.publishes {attempts : Caller → Attempt} (faithful : Faithful p keyring orderId attempts workshop)
    (sound : Sound p orderId workshop) (hDelivered : workshop.Did caller .delivered)
    (hBound : (workshop.shop.access.orderBinding? orderId).isSome)
    (hSize : 1 ≤ (attempts caller).signing.envelope.length ∧ (attempts caller).signing.envelope.length ≤ maxResultBytes)
    (utcNow : Int) : ∃ access digest, workshop.shop.access.publishResult p workshop.shop.commerce orderId
      (attempts caller).signing.envelope none utcNow = .ok (access, digest) := by
  obtain ⟨binding, hBinding⟩ := Option.isSome_iff_exists.mp hBound
  have bound := faithful.reachable.wellFormed.orders hBinding
  have hId := (orderBinding?_eq_some.mp hBinding).2
  have hPattern : Pattern.orderId orderId = true := hId ▸ bound.orderPattern
  have hTime : ∃ updated, Access.parseTimestamp p (orElseNow p none utcNow) = .ok updated :=
    ⟨_, p.parseTimestampAs_timestamp _ _ utcNow⟩
  cases hResult : binding.result with
  | some result =>
      have hBody := faithful.result_eq sound hDelivered hBinding hResult
      have hDigest := (bound.result result hResult).1
      rw [hBody] at hDigest
      have hSame : result = ⟨bodyDigest p (attempts caller).signing.envelope, (attempts caller).signing.envelope⟩ := by
        rw [← hDigest, ← hBody]
      exact ⟨_, _, publishResult_eq_ok.mpr ⟨hPattern, hSize, hTime, faithful.delivered caller hDelivered, rfl, binding,
        hBinding, Or.inl ⟨hSame ▸ hResult, rfl⟩⟩⟩
  | none =>
      let orderBindings := workshop.shop.access.orderBindings.update (fun row => row.orderId = orderId)
        (fun row => { row with
          result := some ⟨bodyDigest p (attempts caller).signing.envelope, (attempts caller).signing.envelope⟩
          updatedAt := orElseNow p none utcNow }) fun _ => rfl
      exact ⟨_, _, publishResult_eq_ok.mpr ⟨hPattern, hSize, hTime, faithful.delivered caller hDelivered, rfl, binding,
        hBinding, Or.inr ⟨hResult, orderBindings, Table.update_rows _ _ _ _, rfl⟩⟩⟩

section
variable {Key : Type} {t : Toolkit} {scheme : Ed25519 Key} [DecidableEq Caller]

end

end Fulfillment

namespace Sample

open Fulfillment VouchSpec.Signing

/-- The paid order is bound to its tenant. -/
def boundCalls : List Shop.Call :=
  .provisionTenant (some tenantId) "" (drawn 1) none newYear ::
    ((Commerce.paid [event "1" .captured 4900 172]).map .commerce ++
      [.bindQuote tenantId quoteId "order-key-0001" none newYear, .bindOrder tenantId orderId quoteId none newYear])

def boundShop : Shop := Runs.run (Shop.step .standard keyring) (Shop.empty .sandbox) boundCalls

theorem boundShop_reachable : boundShop.Reachable .standard keyring :=
  ⟨.sandbox, boundCalls, by rw [boundShop]⟩

/-- The envelope of an empty receipt. -/
def signedReceipt : Json :=
  .obj [("payload", .str "e30="), ("payloadType", .str receiptPayloadType),
    ("signatures", .arr [.obj [("keyid", .str "FRwtV94qDSDD1avvdVwNhHVdUM48w-_Sus7mTCtXiz4"),
      ("sig", .str "d90VRgabc3EHkQFZC8pa8MrGrfea7wbaNBQhaxrnSVkfWjajYiAnpeCS2j8KWpEWzVtQ9tTsp1Tt8ieZrDeLYg==")]])]

def signedLine : Bytes := Bytes.utf8 (signedReceipt.text ++ [Char.ofNat 10])

def signingAttempt : Attempt :=
  { attempt with signing := { envelope := signedLine
                              evidence := { attempt.signing.evidence with
                                envelopeSha256 := Access.bodyDigest .standard signedLine } } }

theorem signedReceipt_eq {message : Bytes} (hMessage : dssePae receiptPayloadType [123, 125] = .ok message) :
    signedReceipt = written receiptPayloadType (keyidOf .standard (.keyedDigest .standard) [1]) [123, 125]
      ((Ed25519.keyedDigest .standard).sign [1] message) := by
  have hSignature : (dssePae receiptPayloadType [123, 125]).map
      (fun message => b64encode ((Ed25519.keyedDigest .standard).sign [1] message)) =
        .ok "d90VRgabc3EHkQFZC8pa8MrGrfea7wbaNBQhaxrnSVkfWjajYiAnpeCS2j8KWpEWzVtQ9tTsp1Tt8ieZrDeLYg==" := by
    decide +kernel
  have hKeyid : keyidOf .standard (.keyedDigest .standard) [1] = "FRwtV94qDSDD1avvdVwNhHVdUM48w-_Sus7mTCtXiz4" := by
    decide +kernel
  have hPayload : b64encode [123, 125] = "e30=" := by decide +kernel
  rw [hMessage] at hSignature
  rw [written, hKeyid, hPayload, show b64encode _ = _ from Except.ok.inj hSignature, signedReceipt]

theorem signingAttempt_signs : signingAttempt.Signs .standard (.keyedDigest .standard) [123, 125] := by
  obtain ⟨envelope, hSigned⟩ := signDssePayload_profile .standard (.keyedDigest .standard) .receipt [123, 125]
    (by simp) (by decide) [1]
  have hReports : signingAttempt.signing.Reports .standard := by
    simp only [Fulfillment.Signing.Reports, signingAttempt]
  refine ⟨⟨[1], envelope, hSigned, ?_⟩, hReports⟩
  obtain ⟨-, message, hMessage, rfl⟩ := signDssePayload_eq_ok.mp hSigned
  rw [jsonLine_eq, Profile.payloadType, sorted_envelope, ← signedReceipt_eq hMessage, signingAttempt, signedLine]

def deliveredFloor : Floor Nat :=
  (Floor.opening .standard orderId { shop := boundShop, job := none } fun _ => signingAttempt).run .standard
    (List.replicate 9 (.call 0))

theorem deliveredFloor_delivered : deliveredFloor.state.Did 0 .delivered ∧
    (deliveredFloor.state.shop.access.orderBinding? orderId).isSome := by
  unfold Workshop.Did
  decide +kernel

end Sample

end VouchSpec
