import VouchSpec.Commerce.History
import VouchSpec.Commerce.Posting

/-! Events that wait for a payment, by the statuses that they target: in which order they
may come up so that none of them is passed over. -/

namespace VouchSpec

namespace PaymentStatus

/-- One or more transitions lead from one status to another. -/
def Reaches (prior next : PaymentStatus) : Prop := Relation.TransGen Edge prior next

/-- No transition, or some, lead from one status to another. -/
def Keeps (prior next : PaymentStatus) : Prop := Relation.ReflTransGen Edge prior next

instance : DecidableRel Edge := fun prior next => inferInstanceAs (Decidable (next ∈ paymentTransitions prior))

theorem keeps_iff {prior next : PaymentStatus} : Keeps prior next ↔ next ∈ prior.leads := by
  constructor
  · intro h
    induction h with
    | refl => exact mem_leads_self prior
    | tail _ hEdge ih => exact leads_edge ih hEdge
  · have hLeads : ∀ prior next : PaymentStatus, next ∈ prior.leads → prior = next ∨ Edge prior next ∨
        ∃ middle, Edge prior middle ∧ (Edge middle next ∨ ∃ other, Edge middle other ∧ Edge other next) := by
      decide
    intro h
    rcases hLeads prior next h with rfl | hEdge | ⟨middle, hFirst, hSecond | ⟨other, hSecond, hThird⟩⟩
    · exact .refl
    · exact .single hEdge
    · exact .tail (.single hFirst) hSecond
    · exact .tail (.tail (.single hFirst) hSecond) hThird

theorem Keeps.reaches {prior next : PaymentStatus} (h : Keeps prior next) (hNe : prior ≠ next) :
    Reaches prior next := by
  rcases Relation.reflTransGen_iff_eq_or_transGen.mp h with hSame | hReaches
  · exact absurd hSame.symm hNe
  · exact hReaches

theorem Reaches.keeps {prior next : PaymentStatus} (h : Reaches prior next) : Keeps prior next := h.to_reflTransGen

/-- A status that a started payment can reach, but not in one step, is the last one. -/
theorem Keeps.last {status target : PaymentStatus} (hKeeps : Keeps status target) (hStarted : status ≠ .pending)
    (hNe : status ≠ target) (hEdge : ¬ Edge status target) : target = .refunded := by
  rw [keeps_iff] at hKeeps
  revert hKeeps hStarted hNe hEdge
  revert status target
  decide

theorem Edge.started {prior next : PaymentStatus} (h : Edge prior next) : next ≠ .pending := by
  revert h
  revert prior next
  decide

/-- Some of the events that come up lead the payment from one status to another; the
rest is still to come up then. -/
inductive Course : PaymentStatus → List PaymentStatus → PaymentStatus → List PaymentStatus → Prop
  | here (status : PaymentStatus) (turn : List PaymentStatus) : Course status turn status turn
  | pass {status target reached : PaymentStatus} {turn rest : List PaymentStatus}
      (later : Course status turn reached rest) : Course status (target :: turn) reached rest
  | move {status target reached : PaymentStatus} {turn rest : List PaymentStatus} (edge : Edge status target)
      (later : Course target turn reached rest) : Course status (target :: turn) reached rest

/-- Waiting events that come up in a good order: wherever some of them lead the payment,
those that come up after can still be applied, and no two exclude each other. -/
structure Orderly (status : PaymentStatus) (turn : List PaymentStatus) : Prop where
  kept : ∀ reached rest, Course status turn reached rest → ∀ target ∈ rest, Keeps reached target
  comparable : ∀ first ∈ turn, ∀ second ∈ turn, Keeps first second ∨ Keeps second first

variable {status target : PaymentStatus} {turn : List PaymentStatus}

theorem Orderly.mem (orderly : Orderly status turn) (hTarget : target ∈ turn) : Keeps status target :=
  orderly.kept status turn (.here status turn) target hTarget

theorem Orderly.pass (orderly : Orderly status (target :: turn)) : Orderly status turn where
  kept reached rest course := orderly.kept reached rest (.pass course)
  comparable first hFirst second hSecond :=
    orderly.comparable first (List.mem_cons_of_mem _ hFirst) second (List.mem_cons_of_mem _ hSecond)

theorem Orderly.move (orderly : Orderly status (target :: turn)) (edge : Edge status target) : Orderly target turn where
  kept reached rest course := orderly.kept reached rest (.move edge course)
  comparable := orderly.pass.comparable

theorem Course.reached {reached : PaymentStatus} {rest : List PaymentStatus} (course : Course status turn reached rest) :
    reached = status ∨ reached ∈ turn := by
  induction course with
  | here => exact Or.inl rfl
  | pass _ ih => exact ih.imp id (List.mem_cons_of_mem _)
  | move _ _ ih =>
      rcases ih with rfl | hLater
      · exact Or.inr List.mem_cons_self
      · exact Or.inr (List.mem_cons_of_mem _ hLater)

/-- A course over one more event is one over those before it, or leaves nothing. -/
theorem Course.of_concat {reached : PaymentStatus} {rest : List PaymentStatus}
    (course : Course status (turn ++ [target]) reached rest) :
    rest = [] ∨ ∃ earlier, rest = earlier ++ [target] ∧ Course status turn reached earlier := by
  induction turn generalizing status with
  | nil =>
      cases course with
      | here => exact Or.inr ⟨[], rfl, .here _ []⟩
      | pass later =>
          cases later
          exact Or.inl rfl
      | move _ later =>
          cases later
          exact Or.inl rfl
  | cons first others ih =>
      cases course with
      | here => exact Or.inr ⟨first :: others, rfl, .here _ _⟩
      | pass later => exact (ih later).imp id fun ⟨earlier, hRest, hCourse⟩ => ⟨earlier, hRest, .pass hCourse⟩
      | move edge later => exact (ih later).imp id fun ⟨earlier, hRest, hCourse⟩ => ⟨earlier, hRest, .move edge hCourse⟩

/-- An event that cannot be applied yet may come up last instead. -/
theorem Orderly.postpone (orderly : Orderly status (target :: turn)) (hStarted : status ≠ .pending)
    (hNe : status ≠ target) (hEdge : ¬ Edge status target) : Orderly status (turn ++ [target]) := by
  have hReach : Keeps status target := orderly.mem List.mem_cons_self
  have hLast : target = .refunded := hReach.last hStarted hNe hEdge
  constructor
  · intro reached rest course other hOther
    rcases course.of_concat with rfl | ⟨earlier, rfl, hCourse⟩
    · cases hOther
    rcases List.mem_append.mp hOther with hEarlier | hHere
    · exact orderly.pass.kept reached earlier hCourse other hEarlier
    rw [List.mem_singleton.mp hHere]
    rcases hCourse.reached with rfl | hTurn
    · exact hReach
    rcases orderly.comparable reached (List.mem_cons_of_mem _ hTurn) target List.mem_cons_self with hKeeps | hKeeps
    · exact hKeeps
    · -- nothing is reached from the last status but itself
      rw [hLast, keeps_iff] at hKeeps
      rw [hLast, List.mem_singleton.mp hKeeps]
      exact .refl
  · intro first hFirst second hSecond
    have hMember : ∀ other ∈ turn ++ [target], other ∈ target :: turn := by
      intro other hOther
      rw [List.mem_append, List.mem_singleton] at hOther
      exact List.mem_cons.mpr hOther.symm
    exact orderly.comparable first (hMember first hFirst) second (hMember second hSecond)

end PaymentStatus

end VouchSpec
