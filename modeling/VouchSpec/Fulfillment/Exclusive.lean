import VouchSpec.Access.Revocation
import VouchSpec.Commerce.Waiting
import VouchSpec.Fulfillment.Course

/-! Any number of calls of `fulfill` on one order that share its directory, in any
interleaving with one another and with provider events. -/

namespace VouchSpec

namespace Fulfillment

open Workshop Program

variable {Caller : Type} {p : Platform} {orderId : String} {caller other : Caller}
  {attempts : Caller → Attempt}

namespace Floor

/-- Every call is somewhere on the course that its outline describes. -/
abbrev OnCourse (p : Platform) (orderId : String) (attempts : Caller → Attempt) (floor : Floor Caller) : Prop :=
  floor.Outlined (Sound p orderId) (Rely orderId) (Guarantee orderId) fun caller =>
    Ends (fun _ => Settled (attempts caller) orderId caller) (Settled (attempts caller) orderId caller)

theorem onCourse_opening {shop : Shop} (hReachable : shop.commerce.Reachable p) (job : Option Job)
    (attempts : Caller → Attempt) : (opening p orderId { shop, job } attempts).OnCourse p orderId attempts := by
  have hNone : ∀ caller deed, ¬({ shop, job } : Workshop Caller).Did caller deed := by
    intro caller deed
    exact List.not_mem_nil
  refine ⟨⟨hReachable, ?_, ?_, ?_, ?_, ?_, ?_, ?_, ?_, ?_⟩, fun caller => ?_⟩
  · exact fun h => absurd h (hNone _ _)
  · exact fun h => absurd h (hNone _ _)
  · exact fun h => absurd h (hNone _ _)
  · exact fun h => absurd h (hNone _ _)
  · exact fun h => absurd h (hNone _ _)
  · exact fun h => absurd h (hNone _ _)
  · exact fun h => absurd h (hNone _ _)
  · exact fun h => absurd h (hNone _ _)
  · exact fun h => absurd h (hNone _ _)
  · exact ⟨Fresh caller, stable_deeds fun did => ∀ deed, ¬did deed, hNone caller, follows_fulfill⟩

variable [DecidableEq Caller] {floor : Floor Caller}

/-- A step of a call keeps every call on its course, and is one that the call guarantees. -/
theorem OnCourse.call (onCourse : floor.OnCourse p orderId attempts) (caller : Caller) :
    (floor.step p (.call caller)).OnCourse p orderId attempts ∧
      Guarantee orderId caller floor.state (floor.step p (.call caller)).state := by
  obtain ⟨hNext, hMoved⟩ := Pool.Outlined.advance onCourse
    (fun _ _ _ _ hOther sound hAfter guarantee => guarantee.rely hOther sound hAfter) caller
  refine ⟨hNext, ?_⟩
  rcases hMoved with hSame | ⟨-, hGuarantee⟩
  · have hState : (floor.step p (.call caller)).state = floor.state := congrArg Pool.state hSame
    rw [hState]
    exact .refl caller floor.state
  · exact hGuarantee

theorem OnCourse.step (onCourse : floor.OnCourse p orderId attempts) (step : Step Caller) :
    (floor.step p step).OnCourse p orderId attempts := by
  cases step with
  | call caller => exact (onCourse.call caller).1
  | event eventValue receivedAt utcNow =>
      exact Pool.Outlined.disturb onCourse (onCourse.state.ingest eventValue receivedAt utcNow)
        fun caller => ingest_rely onCourse.state caller

theorem OnCourse.run (onCourse : floor.OnCourse p orderId attempts) (steps : List (Step Caller)) :
    (floor.run p steps).OnCourse p orderId attempts :=
  Runs.run_invariant (OnCourse p orderId attempts) (fun _ step kept => OnCourse.step kept step) onCourse steps

end Floor

/-- The order is delivered, and the call has at most found it so. -/
structure Late (orderId : String) (caller : Caller) (workshop : Workshop Caller) : Prop where
  status : workshop.status? orderId = some .delivered
  deeds : Fresh caller workshop ∨ workshop.Did caller .foundDelivered

/-- A call that comes after the delivery finds the order delivered, and publishes
nothing but what was signed. -/
theorem Late.deeds_eq {workshop : Workshop Caller} (late : Late orderId caller workshop)
    (sound : Sound p orderId workshop) {envelope : Bytes} (hSigned : workshop.Did other (.signed envelope))
    {deed : Deed} (hDeed : workshop.Did caller deed) : deed = .foundDelivered ∨ deed = .published envelope := by
  rcases late.deeds with hFresh | hFound
  · exact absurd hDeed (hFresh deed)
  rcases (sound.found hFound).2 deed hDeed with hSame | ⟨published, rfl⟩
  · exact Or.inl hSame
  · have hFile := (sound.published hDeed).2
    rw [(sound.signed hSigned).2] at hFile
    obtain rfl : envelope = published := Option.some.inj hFile
    exact Or.inr rfl

section
variable [DecidableEq Caller] {floor : Floor Caller}

theorem Late.step (late : Late orderId caller floor.state) (onCourse : floor.OnCourse p orderId attempts)
    (step : Step Caller) : Late orderId caller (floor.step p step).state := by
  cases step with
  | event eventValue receivedAt utcNow =>
      exact ⟨ingest_status onCourse.state late.status (by simp [OrderStatus.Past]), late.deeds⟩
  | call mover =>
      have hGuarantee := (onCourse.call mover).2
      have hStatus : (floor.step p (.call mover)).state.status? orderId = some .delivered := by
        rcases hGuarantee.status with hSame | ⟨-, -, hUnderway⟩
        · exact hSame.trans late.status
        · exact absurd late.status hUnderway.not_delivered
      refine ⟨hStatus, ?_⟩
      by_cases hMover : mover = caller
      · subst hMover
        rcases late.deeds with hFresh | hFound
        · by_cases hFound : (floor.step p (.call mover)).state.Did mover .foundDelivered
          · exact Or.inr hFound
          · left
            intro deed hDeed
            obtain rfl := hGuarantee.first hFresh late.status deed hDeed
            exact hFound hDeed
        · exact Or.inr (hGuarantee.kept _ hFound)
      · have hOthers := hGuarantee.others caller (Ne.symm hMover)
        rcases late.deeds with hFresh | hFound
        · exact Or.inl fun deed hDeed => hFresh deed ((hOthers deed).mp hDeed)
        · exact Or.inr ((hOthers _).mpr hFound)

/-- What a call has done it has done for good. -/
theorem Floor.OnCourse.kept (onCourse : floor.OnCourse p orderId attempts) (steps : List (Step Caller)) {deed : Deed}
    (hDeed : floor.state.Did caller deed) : (floor.run p steps).state.Did caller deed := by
  induction steps generalizing floor with
  | nil => exact hDeed
  | cons step rest ih =>
      refine ih (onCourse.step step) ?_
      cases step with
      | event eventValue receivedAt utcNow => exact hDeed
      | call mover =>
          have hGuarantee := (onCourse.call mover).2
          by_cases hMover : caller = mover
          · subst hMover
            exact hGuarantee.kept deed hDeed
          · exact (hGuarantee.others caller hMover deed).mpr hDeed

theorem Late.run (late : Late orderId caller floor.state) (onCourse : floor.OnCourse p orderId attempts)
    (steps : List (Step Caller)) : Late orderId caller (floor.run p steps).state := by
  induction steps generalizing floor with
  | nil => exact late
  | cons step rest ih => exact ih (late.step onCourse step) (onCourse.step step)

/-- One call fulfills the order: it alone begins and runs the worker, no other call
changes the store, it leaves the order delivered or failed, and a call that comes
after the delivery publishes the envelope that was signed or nothing. -/
structure Exclusive (p : Platform) (orderId : String) (attempts : Caller → Attempt) (floor : Floor Caller) : Prop where
  begins : ∀ caller other, floor.state.Did caller .began → floor.state.Did other .began → caller = other
  works : ∀ caller, floor.state.Did caller .worked → floor.state.Did caller .began
  changes : ∀ caller, (floor.step p (.call caller)).state.shop.commerce ≠ floor.state.shop.commerce →
    (floor.step p (.call caller)).state.Did caller .began
  ends : ∀ caller outcome, (attempts caller).Handles → (floor.threads caller).outcome? = some outcome →
    floor.state.Did caller .began → Finished orderId caller floor.state
  later : ∀ caller, floor.state.Did caller .delivered → ∃ envelope, floor.state.Did caller (.signed envelope) ∧
    ∀ other steps deed, Fresh other floor.state → (floor.run p steps).state.Did other deed →
      deed = .foundDelivered ∨ deed = .published envelope

end

end Fulfillment

namespace Sample

open Fulfillment

/-- A tenant's order whose payment has been captured. -/
def paidCommerce : Commerce :=
  Runs.run (Commerce.step .standard) (Commerce.empty .sandbox) (Commerce.paid [event "1" .captured 4900 172])

theorem paidCommerce_reachable : paidCommerce.Reachable .standard :=
  ⟨.sandbox, Commerce.paid [event "1" .captured 4900 172], rfl⟩

def paidShop : Shop where
  commerce := paidCommerce
  access :=
    { orderBindings := ⟨[{ orderId, quoteId, tenantId, tokenDigest := drawn 3
                           tokenExpiresAt := "2026-01-31T00:00:00Z", createdAt := "2026-01-01T00:00:00Z"
                           updatedAt := "2026-01-01T00:00:00Z" }], List.pairwise_singleton _ _⟩ }

theorem paidShop_commerce : paidShop.commerce = paidCommerce := by
  simp only [paidShop]

/-- The signed envelope, and a call that makes it. -/
def envelope : Bytes := [123, 125, 10]

def attempt : Attempt where
  directCosts := DirectCost.all.map fun category => (category.value, .int 1)
  publishes := true
  signing :=
    { envelope
      evidence :=
        { receiptId := "cpr_000000000000000000000001"
          receiptSha256 := "0000000000000000000000000000000000000000000000000000000000000001"
          envelopeSha256 := (Platform.standard.sha256 envelope).hexdigest
          signingKeyid := "AAAAAAAAAAAAAAAAAAAAAAAAAAAAAAAAAAAAAAAAAAA" } }
  utcNow _ := newYear

/-- Two calls at once, and a third after them. -/
def overlapping : List (Step Nat) :=
  ([0, 1, 0, 0, 1] ++ List.replicate 8 0 ++ [2, 2, 2]).map .call

def fulfilled : Floor Nat :=
  (Floor.opening .standard orderId { shop := paidShop, job := none } fun _ => attempt).run .standard overlapping

end Sample

end VouchSpec
