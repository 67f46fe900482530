import Mathlib.Data.List.Perm.Basic
import Mathlib.Data.List.Nodup
import VouchSpec.Library.Routine

/-! Greedy work lists. Every pass attempts the items that were pending when it
began; passes repeat until one of them makes no progress. -/

namespace Greedy

variable {State Item Error : Type}

/-- Attempt the items in order and report whether any made progress. -/
def pass (attempt : State → Item → Except Error (State × Bool)) :
    List Item → State → Except Error (State × Bool)
  | [], state => .ok (state, false)
  | item :: rest, state => do
      let (after, progressed) ← attempt state item
      let (finish, later) ← pass attempt rest after
      return (finish, progressed || later)

/-- Repeat passes while they make progress, at most `fuel` times. -/
def loop (pending : State → List Item) (attempt : State → Item → Except Error (State × Bool)) :
    Nat → State → Except Error State
  | 0, state => .ok state
  | fuel + 1, state => do
      let (after, progressed) ← pass attempt (pending state) state
      if progressed then loop pending attempt fuel after else return after

/-- An attempt without progress changes nothing; one with progress takes its
own item off the work list and no other. -/
structure Consuming (pending : State → List Item)
    (attempt : State → Item → Except Error (State × Bool)) : Prop where
  nodup : ∀ state, (pending state).Nodup
  idle : ∀ {state item after}, attempt state item = .ok (after, false) → after = state
  consumes : ∀ {state item after}, item ∈ pending state → attempt state item = .ok (after, true) →
    ∀ other, other ∈ pending after ↔ other ∈ pending state ∧ other ≠ item

variable {pending : State → List Item} {attempt : State → Item → Except Error (State × Bool)}

theorem pass_cons {item : Item} {rest : List Item} {state finish : State} {flag : Bool} :
    pass attempt (item :: rest) state = .ok (finish, flag) ↔
      ∃ after progressed later, attempt state item = .ok (after, progressed) ∧
        pass attempt rest after = .ok (finish, later) ∧ flag = (progressed || later) := by
  simp only [pass, Except.bind_eq_ok_iff, Except.pure_eq_ok_iff, Prod.exists, Prod.mk.injEq]
  constructor
  · rintro ⟨after, progressed, hAttempt, last, later, hRest, rfl, rfl⟩
    exact ⟨after, progressed, later, hAttempt, hRest, rfl⟩
  · rintro ⟨after, progressed, later, hAttempt, hRest, rfl⟩
    exact ⟨after, progressed, hAttempt, finish, later, hRest, rfl, rfl⟩

theorem loop_succ {fuel : Nat} {state finish : State} :
    loop pending attempt (fuel + 1) state = .ok finish ↔
      ∃ after progressed, pass attempt (pending state) state = .ok (after, progressed) ∧
        (if progressed then loop pending attempt fuel after else .ok after) = .ok finish := by
  simp only [loop, Except.bind_eq_ok_iff, Prod.exists]
  constructor
  · rintro ⟨after, progressed, hPass, hRest⟩
    refine ⟨after, progressed, hPass, ?_⟩
    cases progressed with
    | true => simpa using hRest
    | false => simpa using hRest
  · rintro ⟨after, progressed, hPass, hRest⟩
    refine ⟨after, progressed, hPass, ?_⟩
    cases progressed with
    | true => simpa using hRest
    | false => simpa using hRest

/-- The items that one attempt leaves on the work list. -/
theorem Consuming.remains (consuming : Consuming pending attempt) {state after : State}
    {item other : Item} {progressed : Bool} (hItem : item ∈ pending state)
    (hAttempt : attempt state item = .ok (after, progressed)) (hOther : other ∈ pending state)
    (hDifferent : other ≠ item) : other ∈ pending after := by
  cases progressed with
  | false => exact consuming.idle hAttempt ▸ hOther
  | true => exact (consuming.consumes hItem hAttempt other).mpr ⟨hOther, hDifferent⟩

theorem Consuming.rest_remains (consuming : Consuming pending attempt) {state after : State}
    {item : Item} {rest : List Item} {progressed : Bool} (hNodup : (item :: rest).Nodup)
    (hPending : ∀ other ∈ item :: rest, other ∈ pending state)
    (hAttempt : attempt state item = .ok (after, progressed)) :
    ∀ other ∈ rest, other ∈ pending after := by
  intro other hOther
  refine consuming.remains (hPending item (by simp)) hAttempt (hPending other (by simp [hOther])) ?_
  rintro rfl
  exact (List.nodup_cons.mp hNodup).1 hOther

/-- A property that every attempt at a pending item keeps holds after a pass. -/
theorem pass_invariant (invariant : State → Prop) (consuming : Consuming pending attempt)
    (hAttempt : ∀ state item after progressed, invariant state → item ∈ pending state →
      attempt state item = .ok (after, progressed) → invariant after)
    {items : List Item} {state finish : State} {flag : Bool} (hNodup : items.Nodup)
    (hPending : ∀ item ∈ items, item ∈ pending state) (hState : invariant state)
    (hPass : pass attempt items state = .ok (finish, flag)) : invariant finish := by
  induction items generalizing state flag with
  | nil =>
      cases hPass
      exact hState
  | cons item rest ih =>
      obtain ⟨after, progressed, later, hFirst, hRest, -⟩ := pass_cons.mp hPass
      exact ih (List.nodup_cons.mp hNodup).2 (consuming.rest_remains hNodup hPending hFirst)
        (hAttempt state item after progressed hState (hPending item (by simp)) hFirst) hRest

/-- A property that every attempt at a pending item keeps holds after the loop. -/
theorem loop_invariant (invariant : State → Prop) (consuming : Consuming pending attempt)
    (hAttempt : ∀ state item after progressed, invariant state → item ∈ pending state →
      attempt state item = .ok (after, progressed) → invariant after)
    {fuel : Nat} {state finish : State} (hState : invariant state)
    (hLoop : loop pending attempt fuel state = .ok finish) : invariant finish := by
  induction fuel generalizing state with
  | zero =>
      cases hLoop
      exact hState
  | succ fuel ih =>
      obtain ⟨after, progressed, hPass, hRest⟩ := loop_succ.mp hLoop
      have hAfter : invariant after :=
        pass_invariant invariant consuming hAttempt (consuming.nodup state) (fun _ h => h) hState hPass
      cases progressed with
      | true => exact ih hAfter hRest
      | false =>
          cases hRest
          exact hAfter

/-- A pass without progress found every item stuck. -/
theorem pass_idle (consuming : Consuming pending attempt) {items : List Item}
    {state finish : State} (hPass : pass attempt items state = .ok (finish, false)) :
    finish = state ∧ ∀ item ∈ items, attempt state item = .ok (state, false) := by
  induction items generalizing state with
  | nil =>
      cases hPass
      exact ⟨rfl, by simp⟩
  | cons item rest ih =>
      obtain ⟨after, progressed, later, hFirst, hRest, hFlag⟩ := pass_cons.mp hPass
      obtain ⟨rfl, rfl⟩ := Bool.or_eq_false_iff.mp hFlag.symm
      obtain rfl := consuming.idle hFirst
      obtain ⟨rfl, hStuck⟩ := ih hRest
      refine ⟨rfl, ?_⟩
      intro other hOther
      rcases List.mem_cons.mp hOther with rfl | hOther
      · exact hFirst
      · exact hStuck other hOther

/-- Progress shortens the work list. -/
theorem Consuming.length_lt (consuming : Consuming pending attempt) {state after : State}
    {item : Item} (hItem : item ∈ pending state)
    (hAttempt : attempt state item = .ok (after, true)) :
    (pending after).length < (pending state).length := by
  have hSubset : (item :: pending after).Subperm (pending state) := by
    refine List.subperm_of_subset ?_ ?_
    · refine List.nodup_cons.mpr ⟨?_, consuming.nodup after⟩
      intro hStill
      exact ((consuming.consumes hItem hAttempt item).mp hStill).2 rfl
    · intro other hOther
      rcases List.mem_cons.mp hOther with rfl | hOther
      · exact hItem
      · exact ((consuming.consumes hItem hAttempt other).mp hOther).1
  exact hSubset.length_le

theorem pass_length (consuming : Consuming pending attempt) {items : List Item}
    {state finish : State} {flag : Bool} (hNodup : items.Nodup)
    (hPending : ∀ item ∈ items, item ∈ pending state)
    (hPass : pass attempt items state = .ok (finish, flag)) :
    (pending finish).length ≤ (pending state).length ∧
      (flag = true → (pending finish).length < (pending state).length) := by
  induction items generalizing state flag with
  | nil =>
      cases hPass
      exact ⟨Nat.le_refl _, by simp⟩
  | cons item rest ih =>
      obtain ⟨after, progressed, later, hFirst, hRest, rfl⟩ := pass_cons.mp hPass
      obtain ⟨hLe, hLt⟩ := ih (List.nodup_cons.mp hNodup).2
        (consuming.rest_remains hNodup hPending hFirst) hRest
      cases progressed with
      | false =>
          obtain rfl := consuming.idle hFirst
          exact ⟨hLe, hLt⟩
      | true =>
          have hShorter := consuming.length_lt (hPending item (by simp)) hFirst
          exact ⟨by omega, fun _ => by omega⟩

/-- With fuel for every pending item the loop ends because it is stuck. -/
theorem loop_saturated (consuming : Consuming pending attempt) {fuel : Nat}
    {state finish : State} (hFuel : (pending state).length < fuel)
    (hLoop : loop pending attempt fuel state = .ok finish) :
    ∀ item ∈ pending finish, attempt finish item = .ok (finish, false) := by
  induction fuel generalizing state with
  | zero => omega
  | succ fuel ih =>
      obtain ⟨after, progressed, hPass, hRest⟩ := loop_succ.mp hLoop
      cases progressed with
      | true =>
          have hShorter := (pass_length consuming (consuming.nodup state) (fun _ h => h) hPass).2 rfl
          exact ih (by omega) hRest
      | false =>
          cases hRest
          obtain ⟨rfl, hStuck⟩ := pass_idle consuming hPass
          exact hStuck

/-- Where no pending item can make progress, the loop returns at once. -/
theorem loop_of_stuck {fuel : Nat} {state : State}
    (hStuck : ∀ item ∈ pending state, attempt state item = .ok (state, false)) :
    loop pending attempt fuel state = .ok state := by
  have hPass : ∀ items : List Item, (∀ item ∈ items, item ∈ pending state) →
      pass attempt items state = .ok (state, false) := by
    intro items
    induction items with
    | nil => intro _; rfl
    | cons item rest ih =>
        intro hItems
        exact pass_cons.mpr ⟨state, false, false, hStuck item (hItems item (by simp)),
          ih (fun other hOther => hItems other (by simp [hOther])), rfl⟩
  cases fuel with
  | zero => rfl
  | succ fuel => exact loop_succ.mpr ⟨state, false, hPass _ (fun _ h => h), rfl⟩

/-- Attempts that never raise under an invariant make passes that never raise. -/
theorem pass_returns (invariant : State → Prop) (consuming : Consuming pending attempt)
    (hAttempt : ∀ state item after progressed, invariant state → item ∈ pending state →
      attempt state item = .ok (after, progressed) → invariant after)
    (hReturns : ∀ state item, invariant state → item ∈ pending state →
      ∃ result, attempt state item = .ok result)
    {items : List Item} {state : State} (hNodup : items.Nodup)
    (hPending : ∀ item ∈ items, item ∈ pending state) (hState : invariant state) :
    ∃ result, pass attempt items state = .ok result := by
  induction items generalizing state with
  | nil => exact ⟨_, rfl⟩
  | cons item rest ih =>
      obtain ⟨⟨after, progressed⟩, hFirst⟩ := hReturns state item hState (hPending item (by simp))
      obtain ⟨⟨finish, later⟩, hRest⟩ := ih (List.nodup_cons.mp hNodup).2
        (consuming.rest_remains hNodup hPending hFirst)
        (hAttempt state item after progressed hState (hPending item (by simp)) hFirst)
      exact ⟨_, pass_cons.mpr ⟨after, progressed, later, hFirst, hRest, rfl⟩⟩

theorem loop_returns (invariant : State → Prop) (consuming : Consuming pending attempt)
    (hAttempt : ∀ state item after progressed, invariant state → item ∈ pending state →
      attempt state item = .ok (after, progressed) → invariant after)
    (hReturns : ∀ state item, invariant state → item ∈ pending state →
      ∃ result, attempt state item = .ok result)
    {state : State} (fuel : Nat) (hState : invariant state) :
    ∃ finish, loop pending attempt fuel state = .ok finish := by
  induction fuel generalizing state with
  | zero => exact ⟨state, rfl⟩
  | succ fuel ih =>
      obtain ⟨⟨after, progressed⟩, hPass⟩ := pass_returns invariant consuming hAttempt hReturns
        (consuming.nodup state) (fun _ h => h) hState
      cases progressed with
      | false => exact ⟨after, loop_succ.mpr ⟨after, false, hPass, rfl⟩⟩
      | true =>
          have hAfter := pass_invariant invariant consuming hAttempt (consuming.nodup state)
            (fun _ h => h) hState hPass
          obtain ⟨finish, hRest⟩ := ih hAfter
          exact ⟨finish, loop_succ.mpr ⟨after, true, hPass, hRest⟩⟩

/-- Progress leaves the other pending items in their order. -/
def Ordered (pending : State → List Item) (attempt : State → Item → Except Error (State × Bool)) : Prop :=
  ∀ state before item rest after, pending state = before ++ item :: rest →
    attempt state item = .ok (after, true) → pending after = before ++ rest

/-- A property of the state and of the items in the order in which they come up: an
attempt takes the first of them away, or puts it last. -/
structure Turning (pending : State → List Item) (attempt : State → Item → Except Error (State × Bool))
    (invariant : State → List Item → Prop) : Prop where
  progress : ∀ {state item rest after}, invariant state (item :: rest) → item ∈ pending state →
    attempt state item = .ok (after, true) → invariant after rest
  idle : ∀ {state item rest}, invariant state (item :: rest) → item ∈ pending state →
    attempt state item = .ok (state, false) → invariant state (rest ++ [item])

theorem pass_turning (consuming : Consuming pending attempt) (ordered : Ordered pending attempt)
    {invariant : State → List Item → Prop} (turning : Turning pending attempt invariant)
    {items kept : List Item} {state finish : State} {flag : Bool}
    (hPending : pending state = kept ++ items) (hState : invariant state (items ++ kept))
    (hPass : pass attempt items state = .ok (finish, flag)) : invariant finish (pending finish) := by
  induction items generalizing state kept flag with
  | nil =>
      cases hPass
      rw [hPending, List.append_nil]
      exact hState
  | cons item rest ih =>
      obtain ⟨after, progressed, later, hFirst, hRest, -⟩ := pass_cons.mp hPass
      have hItem : item ∈ pending state := by simp [hPending]
      cases progressed with
      | true => exact ih (ordered state kept item rest after hPending hFirst) (turning.progress hState hItem hFirst) hRest
      | false =>
          obtain rfl := consuming.idle hFirst
          refine @ih (kept ++ [item]) after later (by simp [hPending]) ?_ hRest
          rw [← List.append_assoc]
          exact turning.idle hState hItem hFirst

/-- What holds of the pending items in their order at the start holds of those left. -/
theorem loop_turning (consuming : Consuming pending attempt) (ordered : Ordered pending attempt)
    {invariant : State → List Item → Prop} (turning : Turning pending attempt invariant)
    {fuel : Nat} {state finish : State} (hState : invariant state (pending state))
    (hLoop : loop pending attempt fuel state = .ok finish) : invariant finish (pending finish) := by
  induction fuel generalizing state with
  | zero =>
      cases hLoop
      exact hState
  | succ fuel ih =>
      obtain ⟨after, progressed, hPass, hRest⟩ := loop_succ.mp hLoop
      have hAfter : invariant after (pending after) :=
        @pass_turning _ _ _ _ _ consuming ordered invariant turning (pending state) [] state after progressed rfl
          (by rwa [List.append_nil]) hPass
      cases progressed with
      | true => exact ih hAfter hRest
      | false =>
          cases hRest
          exact hAfter

/-- A run of attempts at pending items, each of which made progress. -/
inductive Taken (pending : State → List Item) (attempt : State → Item → Except Error (State × Bool)) :
    State → List Item → State → Prop where
  | nil (state : State) : Taken pending attempt state [] state
  | cons {state after finish : State} {item : Item} {rest : List Item} (hItem : item ∈ pending state)
      (hAttempt : attempt state item = .ok (after, true)) (later : Taken pending attempt after rest finish) :
      Taken pending attempt state (item :: rest) finish

theorem Taken.append {state middle finish : State} {items more : List Item}
    (first : Taken pending attempt state items middle) (second : Taken pending attempt middle more finish) :
    Taken pending attempt state (items ++ more) finish := by
  induction first with
  | nil => exact second
  | cons hItem hAttempt _ ih => exact .cons hItem hAttempt (ih second)

/-- Every item of such a run was pending at its start, and comes up once. -/
theorem Taken.items (consuming : Consuming pending attempt) {state finish : State} {items : List Item}
    (taken : Taken pending attempt state items finish) :
    items.Nodup ∧ ∀ item ∈ items, item ∈ pending state := by
  induction taken with
  | nil => simp
  | cons hItem hAttempt _ ih =>
      obtain ⟨hNodup, hPending⟩ := ih
      have hLater := fun other hOther => (consuming.consumes hItem hAttempt other).mp (hPending other hOther)
      constructor
      · exact List.nodup_cons.mpr ⟨fun hAgain => (hLater _ hAgain).2 rfl, hNodup⟩
      · intro other hOther
        rcases List.mem_cons.mp hOther with rfl | hRest
        · exact hItem
        · exact (hLater other hRest).1

theorem pass_taken (consuming : Consuming pending attempt) {items : List Item} {state finish : State} {flag : Bool}
    (hNodup : items.Nodup) (hPending : ∀ item ∈ items, item ∈ pending state)
    (hPass : pass attempt items state = .ok (finish, flag)) : ∃ taken, Taken pending attempt state taken finish := by
  induction items generalizing state flag with
  | nil =>
      cases hPass
      exact ⟨[], .nil _⟩
  | cons item rest ih =>
      obtain ⟨after, progressed, later, hFirst, hRest, -⟩ := pass_cons.mp hPass
      obtain ⟨taken, hTaken⟩ := ih (List.nodup_cons.mp hNodup).2 (consuming.rest_remains hNodup hPending hFirst) hRest
      cases progressed with
      | true => exact ⟨item :: taken, .cons (hPending item (by simp)) hFirst hTaken⟩
      | false =>
          obtain rfl := consuming.idle hFirst
          exact ⟨taken, hTaken⟩

/-- The loop is a run of attempts that made progress. -/
theorem loop_taken (consuming : Consuming pending attempt) {fuel : Nat} {state finish : State}
    (hLoop : loop pending attempt fuel state = .ok finish) : ∃ taken, Taken pending attempt state taken finish := by
  induction fuel generalizing state with
  | zero =>
      cases hLoop
      exact ⟨[], .nil _⟩
  | succ fuel ih =>
      obtain ⟨after, progressed, hPass, hRest⟩ := loop_succ.mp hLoop
      obtain ⟨first, hFirst⟩ := pass_taken consuming (consuming.nodup state) (fun _ h => h) hPass
      cases progressed with
      | true =>
          obtain ⟨second, hSecond⟩ := ih hRest
          exact ⟨first ++ second, hFirst.append hSecond⟩
      | false =>
          cases hRest
          exact ⟨first, hFirst⟩

/-- With fuel for every pending item the loop ends on its own: more fuel changes nothing. -/
theorem loop_more (consuming : Consuming pending attempt) {fuel more : Nat} {state : State}
    (hFuel : (pending state).length < fuel) (hMore : fuel ≤ more) :
    loop pending attempt more state = loop pending attempt fuel state := by
  induction fuel generalizing state more with
  | zero => omega
  | succ fuel ih =>
      obtain ⟨extra, rfl⟩ : ∃ extra, more = extra + 1 := ⟨more - 1, by omega⟩
      rw [loop, loop]
      cases hPass : pass attempt (pending state) state with
      | error raised => rfl
      | ok result =>
          obtain ⟨after, progressed⟩ := result
          cases progressed with
          | false => rfl
          | true =>
              have hShorter := (pass_length consuming (consuming.nodup state) (fun _ h => h) hPass).2 rfl
              exact ih (by omega) (by omega)

end Greedy
