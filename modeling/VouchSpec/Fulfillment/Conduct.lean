import VouchSpec.Commerce.Reversal
import VouchSpec.Fulfillment.Coordinator

/-! What holds of the workshop between any two steps, what each call guarantees
of its own steps, and what it relies on of the others'. -/

namespace VouchSpec

/-- The order has left the phase in which provider events set its status. -/
def OrderStatus.Past (status : OrderStatus) : Prop := status ≠ .checkoutPending ∧ status ≠ .paymentPending

namespace Fulfillment

variable {Caller : Type} {p : Platform} {orderId : String}

namespace Workshop

def status? (orderId : String) (workshop : Workshop Caller) : Option OrderStatus :=
  (workshop.shop.commerce.order? orderId).map OrderRow.orderStatus

def payment? (orderId : String) (workshop : Workshop Caller) : Option PaymentStatus :=
  (workshop.shop.commerce.order? orderId).map OrderRow.paymentStatus

/-- The file `receipt.dsse.json`. -/
def envelope? (workshop : Workshop Caller) : Option Bytes := workshop.job.bind Job.envelope

def Did (workshop : Workshop Caller) (caller : Caller) (deed : Deed) : Prop :=
  (caller, deed) ∈ workshop.journal

/-- The order is queued or running. -/
def Underway (orderId : String) (workshop : Workshop Caller) : Prop :=
  workshop.status? orderId = some .queued ∨ workshop.status? orderId = some .running

/-- The payment is captured or available. -/
def Paid (orderId : String) (workshop : Workshop Caller) : Prop :=
  ∃ status, workshop.payment? orderId = some status ∧ status.Live

/-- The store after a transaction. -/
def commit (workshop : Workshop Caller) (commerce : Commerce) : Workshop Caller :=
  { workshop with shop := { workshop.shop with commerce } }

variable {workshop : Workshop Caller} {caller other : Caller} {deed new : Deed}

@[simp] theorem did_log : (workshop.log caller new).Did other deed ↔
    workshop.Did other deed ∨ other = caller ∧ deed = new := by
  simp [Did, log]

@[simp] theorem did_commit {commerce : Commerce} :
    (workshop.commit commerce).Did other deed ↔ workshop.Did other deed := Iff.rfl

@[simp] theorem did_write {envelope : Bytes} :
    (workshop.write envelope).Did other deed ↔ workshop.Did other deed := Iff.rfl

theorem Underway.past (underway : workshop.Underway orderId) :
    ∃ status, workshop.status? orderId = some status ∧ status.Past := by
  rcases underway with h | h
  · exact ⟨_, h, by simp [OrderStatus.Past]⟩
  · exact ⟨_, h, by simp [OrderStatus.Past]⟩

theorem Underway.not_delivered (underway : workshop.Underway orderId) :
    workshop.status? orderId ≠ some .delivered := by
  rcases underway with h | h <;> simp [h]

end Workshop

open Workshop

/-- What holds of the workshop between any two steps. -/
structure Sound (p : Platform) (orderId : String) (workshop : Workshop Caller) : Prop where
  reachable : workshop.shop.commerce.Reachable p
  maker : ∀ {caller other}, workshop.Did caller .made → workshop.Did other .made → caller = other
  made : ∀ {caller}, workshop.Did caller .made → workshop.job.isSome
  began : ∀ {caller}, workshop.Did caller .began → workshop.Did caller .made
  worked : ∀ {caller}, workshop.Did caller .worked → workshop.Did caller .began
  signed : ∀ {caller envelope}, workshop.Did caller (.signed envelope) →
    workshop.Did caller .began ∧ workshop.envelope? = some envelope
  delivered : ∀ {caller}, workshop.Did caller .delivered → workshop.Did caller .began ∧
    workshop.status? orderId = some .delivered ∧ ∃ envelope, workshop.Did caller (.signed envelope)
  published : ∀ {caller envelope}, workshop.Did caller (.published envelope) →
    workshop.status? orderId = some .delivered ∧ workshop.envelope? = some envelope
  found : ∀ {caller}, workshop.Did caller .foundDelivered → workshop.status? orderId = some .delivered ∧
    ∀ deed, workshop.Did caller deed → deed = .foundDelivered ∨ ∃ envelope, deed = .published envelope
  admitted : ∀ {caller}, workshop.Did caller .admitted →
    ∃ status, workshop.status? orderId = some status ∧ status.Past

/-- When the journal may be continued by a deed. -/
def Permits (orderId : String) (workshop : Workshop Caller) (caller : Caller) : Deed → Prop
  | .admitted => ¬workshop.Did caller .foundDelivered ∧
      ∃ status, workshop.status? orderId = some status ∧ status.Past
  | .foundDelivered => workshop.status? orderId = some .delivered ∧ ∀ deed, ¬workshop.Did caller deed
  | .made => ¬workshop.Did caller .foundDelivered ∧ workshop.job.isSome ∧
      ∀ other, ¬workshop.Did other .made
  | .began => ¬workshop.Did caller .foundDelivered ∧ workshop.Did caller .made
  | .worked => ¬workshop.Did caller .foundDelivered ∧ workshop.Did caller .began
  | .signed envelope => ¬workshop.Did caller .foundDelivered ∧ workshop.Did caller .began ∧
      workshop.envelope? = some envelope
  | .delivered => ¬workshop.Did caller .foundDelivered ∧ workshop.Did caller .began ∧
      workshop.status? orderId = some .delivered ∧ ∃ envelope, workshop.Did caller (.signed envelope)
  | .published envelope => workshop.status? orderId = some .delivered ∧
      workshop.envelope? = some envelope

/-- The deed may be one of a call that found the order delivered. -/
theorem Permits.found {workshop : Workshop Caller} {caller : Caller} {deed : Deed}
    (permits : Permits orderId workshop caller deed) (hFound : workshop.Did caller .foundDelivered) :
    ∃ envelope, deed = .published envelope := by
  cases deed with
  | published envelope => exact ⟨envelope, rfl⟩
  | foundDelivered => exact absurd hFound (permits.2 _)
  | _ => exact absurd hFound permits.1

/-- A permitted deed keeps the workshop sound. -/
theorem Sound.log {workshop : Workshop Caller} {caller : Caller} {deed : Deed}
    (sound : Sound p orderId workshop) (permits : Permits orderId workshop caller deed) :
    Sound p orderId (workshop.log caller deed) where
  reachable := sound.reachable
  maker := by
    intro first second hFirst hSecond
    rw [did_log] at hFirst hSecond
    rcases hFirst with hFirst | ⟨rfl, hMade⟩ <;> rcases hSecond with hSecond | ⟨rfl, hAlso⟩
    · exact sound.maker hFirst hSecond
    · subst hAlso
      exact absurd hFirst (permits.2.2 first)
    · subst hMade
      exact absurd hSecond (permits.2.2 second)
    · rfl
  made := by
    intro first hFirst
    rcases did_log.mp hFirst with h | ⟨rfl, rfl⟩
    · exact sound.made h
    · exact permits.2.1
  began := by
    intro first hFirst
    apply did_log.mpr
    rcases did_log.mp hFirst with h | ⟨rfl, rfl⟩
    · exact Or.inl (sound.began h)
    · exact Or.inl permits.2
  worked := by
    intro first hFirst
    apply did_log.mpr
    rcases did_log.mp hFirst with h | ⟨rfl, rfl⟩
    · exact Or.inl (sound.worked h)
    · exact Or.inl permits.2
  signed := by
    intro first envelope hFirst
    rcases did_log.mp hFirst with h | ⟨rfl, rfl⟩
    · exact ⟨did_log.mpr (Or.inl (sound.signed h).1), (sound.signed h).2⟩
    · exact ⟨did_log.mpr (Or.inl permits.2.1), permits.2.2⟩
  delivered := by
    intro first hFirst
    rcases did_log.mp hFirst with h | ⟨rfl, rfl⟩
    · obtain ⟨hBegan, hStatus, envelope, hSigned⟩ := sound.delivered h
      exact ⟨did_log.mpr (Or.inl hBegan), hStatus, envelope, did_log.mpr (Or.inl hSigned)⟩
    · obtain ⟨-, hBegan, hStatus, envelope, hSigned⟩ := permits
      exact ⟨did_log.mpr (Or.inl hBegan), hStatus, envelope, did_log.mpr (Or.inl hSigned)⟩
  published := by
    intro first envelope hFirst
    rcases did_log.mp hFirst with h | ⟨rfl, rfl⟩
    · exact sound.published h
    · exact permits
  found := by
    intro first hFirst
    rcases did_log.mp hFirst with h | ⟨rfl, rfl⟩
    · refine ⟨(sound.found h).1, fun other hOther => ?_⟩
      rcases did_log.mp hOther with hOther | ⟨rfl, rfl⟩
      · exact (sound.found h).2 other hOther
      · exact Or.inr (permits.found h)
    · refine ⟨permits.1, fun other hOther => ?_⟩
      rcases did_log.mp hOther with hOther | ⟨-, rfl⟩
      · exact absurd hOther (permits.2 other)
      · exact Or.inl rfl
  admitted := by
    intro first hFirst
    rcases did_log.mp hFirst with h | ⟨rfl, rfl⟩
    · exact sound.admitted h
    · exact permits.2

/-- A transaction of the commerce store keeps the workshop sound, when the order
stays delivered and past its payment. -/
theorem Sound.commit {workshop : Workshop Caller} (sound : Sound p orderId workshop) {commerce : Commerce}
    (hReachable : commerce.Reachable p)
    (hDelivered : workshop.status? orderId = some .delivered →
      (workshop.commit commerce).status? orderId = some .delivered)
    (hPast : (∃ status, workshop.status? orderId = some status ∧ status.Past) →
      ∃ status, (workshop.commit commerce).status? orderId = some status ∧ status.Past) :
    Sound p orderId (workshop.commit commerce) where
  reachable := hReachable
  maker := sound.maker
  made := sound.made
  began := sound.began
  worked := sound.worked
  signed := sound.signed
  delivered h := by
    obtain ⟨hBegan, hStatus, hSigned⟩ := sound.delivered h
    exact ⟨hBegan, hDelivered hStatus, hSigned⟩
  published h := ⟨hDelivered (sound.published h).1, (sound.published h).2⟩
  found h := ⟨hDelivered (sound.found h).1, (sound.found h).2⟩
  admitted h := hPast (sound.admitted h)

/-- The order's directory is made once. -/
theorem Sound.directory {workshop : Workshop Caller} (sound : Sound p orderId workshop)
    (hJob : workshop.job = none) : Sound p orderId { workshop with job := some {} } where
  reachable := sound.reachable
  maker := sound.maker
  made _ := rfl
  began := sound.began
  worked := sound.worked
  signed h := by
    have hMade := sound.made (sound.began (sound.signed h).1)
    rw [hJob] at hMade
    cases hMade
  delivered := sound.delivered
  published h := by
    have hFile := (sound.published h).2
    rw [envelope?, hJob] at hFile
    cases hFile
  found := sound.found
  admitted := sound.admitted

/-- The envelope is written before anything was signed or published. -/
theorem Sound.write {workshop : Workshop Caller} (sound : Sound p orderId workshop) {envelope : Bytes}
    (hUnsigned : ∀ caller other, ¬workshop.Did caller (.signed other))
    (hStatus : workshop.status? orderId ≠ some .delivered) :
    Sound p orderId (workshop.write envelope) where
  reachable := sound.reachable
  maker := sound.maker
  made h := by
    have hJob := sound.made h
    simpa [Workshop.write] using hJob
  began := sound.began
  worked := sound.worked
  signed h := absurd h (hUnsigned _ _)
  delivered := sound.delivered
  published h := absurd (sound.published h).1 hStatus
  found := sound.found
  admitted := sound.admitted

/-- What a call relies on between its steps. -/
structure Rely (orderId : String) (caller : Caller) (before after : Workshop Caller) : Prop where
  deeds : ∀ deed, after.Did caller deed ↔ before.Did caller deed
  directory : before.job.isSome → after.job.isSome
  job : before.Did caller .made → after.job = before.job
  file : before.status? orderId = some .delivered → after.job = before.job
  status : ∀ status, before.status? orderId = some status → status.Past →
    after.status? orderId = some status ∨ ¬before.Did caller .made ∧ after.job.isSome
  delivered : before.status? orderId = some .delivered → after.status? orderId = some .delivered

/-- What a call guarantees of each of its steps. -/
structure Guarantee (orderId : String) (caller : Caller) (before after : Workshop Caller) : Prop where
  others : ∀ other, other ≠ caller → ∀ deed, after.Did other deed ↔ before.Did other deed
  kept : ∀ deed, before.Did caller deed → after.Did caller deed
  job : after.job = before.job ∨ (before.job = none ∨ before.Did caller .made) ∧
    after.Did caller .made ∧ before.status? orderId ≠ some .delivered
  status : after.status? orderId = before.status? orderId ∨
    before.Did caller .admitted ∧ before.Did caller .made ∧ before.Underway orderId
  payment : after.payment? orderId = before.payment? orderId
  entry : after.Did caller .admitted → before.Did caller .admitted ∨ before.Paid orderId
  untouched : after.Did caller .began ∨ after.shop.commerce = before.shop.commerce
  first : (∀ deed, ¬before.Did caller deed) → before.status? orderId = some .delivered →
    ∀ deed, after.Did caller deed → deed = .foundDelivered

theorem Guarantee.refl (caller : Caller) (workshop : Workshop Caller) :
    Guarantee orderId caller workshop workshop where
  others _ _ _ := Iff.rfl
  kept _ := id
  job := Or.inl rfl
  status := Or.inl rfl
  payment := rfl
  entry := Or.inl
  untouched := Or.inr rfl
  first hNone _ deed hDeed := absurd hDeed (hNone deed)

/-- What one call guarantees is what the others rely on. -/
theorem Guarantee.rely {caller other : Caller} {before after : Workshop Caller} (hOther : other ≠ caller)
    (sound : Sound p orderId before) (hAfter : Sound p orderId after)
    (guarantee : Guarantee orderId caller before after) : Rely orderId other before after where
  deeds := guarantee.others other hOther
  directory hJob := by
    rcases guarantee.job with hSame | ⟨-, hMade, -⟩
    · rw [hSame]
      exact hJob
    · exact hAfter.made hMade
  job hMade := by
    rcases guarantee.job with hSame | ⟨hNone | hOwn, -, -⟩
    · exact hSame
    · have hJob := sound.made hMade
      rw [hNone] at hJob
      cases hJob
    · exact absurd (sound.maker hMade hOwn) hOther
  file hStatus := by
    rcases guarantee.job with hSame | ⟨-, -, hNot⟩
    · exact hSame
    · exact absurd hStatus hNot
  status status hStatus _ := by
    rcases guarantee.status with hSame | ⟨-, hMade, -⟩
    · exact Or.inl (hSame.trans hStatus)
    · refine Or.inr ⟨fun hOwn => hOther (sound.maker hOwn hMade), ?_⟩
      exact hAfter.made (guarantee.kept _ hMade)
  delivered hStatus := by
    rcases guarantee.status with hSame | ⟨-, -, hUnderway⟩
    · exact hSame.trans hStatus
    · exact absurd hStatus hUnderway.not_delivered

/-- Provider events leave the order past its payment where it is. -/
theorem ingest_status {workshop : Workshop Caller} (sound : Sound p orderId workshop)
    {eventValue : Json} {receivedAt : Option String} {utcNow : Int} {status : OrderStatus}
    (hStatus : workshop.status? orderId = some status) (hPast : status.Past) :
    (workshop.ingest p eventValue receivedAt utcNow).status? orderId = some status := by
  obtain ⟨order, hOrder, rfl⟩ := Option.map_eq_some_iff.mp hStatus
  obtain ⟨later, hLater, hSame⟩ := Commerce.ingest_settled sound.reachable.wellFormed hOrder hPast
  exact Option.map_eq_some_iff.mpr ⟨later, hLater, hSame⟩

/-- Every call relies on no more than events grant. -/
theorem ingest_rely {workshop : Workshop Caller} (sound : Sound p orderId workshop)
    {eventValue : Json} {receivedAt : Option String} {utcNow : Int} (caller : Caller) :
    Rely orderId caller workshop (workshop.ingest p eventValue receivedAt utcNow) where
  deeds _ := Iff.rfl
  directory := id
  job _ := rfl
  file _ := rfl
  status _ hStatus hPast := Or.inl (ingest_status sound hStatus hPast)
  delivered hStatus := ingest_status sound hStatus (by simp [OrderStatus.Past])

theorem Sound.ingest {workshop : Workshop Caller} (sound : Sound p orderId workshop)
    (eventValue : Json) (receivedAt : Option String) (utcNow : Int) :
    Sound p orderId (workshop.ingest p eventValue receivedAt utcNow) := by
  apply sound.commit (sound.reachable.step _)
  · intro hStatus
    exact ingest_status sound hStatus (by simp [OrderStatus.Past])
  · rintro ⟨status, hStatus, hPast⟩
    exact ⟨status, ingest_status sound hStatus hPast, hPast⟩

end Fulfillment

end VouchSpec
