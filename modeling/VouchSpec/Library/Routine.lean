/-! Programs that may raise, over a state that survives the exception. A
transaction is atomic: when its body raises, its own writes are rolled back,
while the writes of the transactions before it stay. -/

/-- Raise `error` unless `condition` holds. -/
def require {Error : Type} (condition : Prop) [Decidable condition] (error : Error) :
    Except Error Unit :=
  if condition then .ok () else .error error

@[simp] theorem require_eq_ok {Error : Type} {condition : Prop} [Decidable condition]
    {error : Error} {result : Unit} : require condition error = .ok result ↔ condition := by
  unfold require
  split <;> simp_all

theorem require_of {Error : Type} {condition : Prop} [Decidable condition] {error : Error}
    (h : condition) : require condition error = .ok () := by
  simp [require, h]

theorem require_congr {Error : Type} {condition other : Prop} [Decidable condition] [Decidable other]
    {error : Error} (h : condition ↔ other) : require condition error = require other error := by
  unfold require
  simp only [h]

namespace Except

variable {Error First Second : Type}

@[simp] theorem bind_eq_ok_iff {first : Except Error First} {next : First → Except Error Second}
    {result : Second} :
    (first >>= next) = .ok result ↔ ∃ value, first = .ok value ∧ next value = .ok result := by
  cases first with
  | error error => simp [bind, Except.bind]
  | ok value => simp [bind, Except.bind]

@[simp] theorem pure_eq_ok_iff {value result : First} :
    (pure value : Except Error First) = .ok result ↔ value = result := by
  simp [pure, Except.pure]

@[simp] theorem throw_eq_ok_iff {error : Error} {result : First} :
    (throw error : Except Error First) = .ok result ↔ False := by
  simp [throw, throwThe, MonadExceptOf.throw]

@[simp] theorem map_eq_ok_iff {first : Except Error First} {change : First → Second}
    {result : Second} : change <$> first = .ok result ↔ ∃ value, first = .ok value ∧ change value = result := by
  cases first <;> simp [Functor.map, Except.map]

@[simp] theorem mapError_eq_ok_iff {Other : Type} {change : Error → Other} {first : Except Error First}
    {value : First} : first.mapError change = .ok value ↔ first = .ok value := by
  cases first with
  | error error =>
      constructor
      · intro h
        cases h
      · intro h
        cases h
  | ok found =>
      show Except.ok found = .ok value ↔ _
      rw [Except.ok.injEq, Except.ok.injEq]

theorem toOption_eq_some_iff {first : Except Error First} {value : First} :
    first.toOption = some value ↔ first = .ok value := by
  cases first <;> simp [Except.toOption]

/-- The value of an optional result, or the error that its absence raises. -/
def ofOption (error : Error) : Option First → Except Error First
  | some value => .ok value
  | none => .error error

@[simp] theorem ofOption_eq_ok_iff {error : Error} {option : Option First} {value : First} :
    ofOption error option = .ok value ↔ option = some value := by
  cases option <;> simp [ofOption]

/-- A map moves past the first part of a computation. -/
theorem map_bind_of {Third : Type} {change : Second → Third} {first : Except Error First}
    {next : First → Except Error Second} {rest : First → Except Error Third}
    (hNext : ∀ value, first = .ok value → change <$> next value = rest value) :
    change <$> (first >>= next) = first >>= rest := by
  cases first with
  | error error => rfl
  | ok value => exact hNext value rfl

/-- The only errors of a computation. -/
def RaisesOnly (expected : Error → Prop) (first : Except Error First) : Prop :=
  ∀ error, first = .error error → expected error

theorem raisesOnly_ok {expected : Error → Prop} (value : First) :
    RaisesOnly expected (.ok value : Except Error First) := by
  intro error h
  cases h

theorem raisesOnly_error {expected : Error → Prop} {error : Error} (h : expected error) :
    RaisesOnly expected (.error error : Except Error First) := by
  intro other hOther
  cases hOther
  exact h

theorem raisesOnly_require {expected : Error → Prop} {condition : Prop} [Decidable condition] {error : Error}
    (h : expected error) : RaisesOnly expected (require condition error) := by
  unfold require
  split
  · exact raisesOnly_ok ()
  · exact raisesOnly_error h

theorem raisesOnly_ofOption {expected : Error → Prop} {error : Error} {option : Option First} (h : expected error) :
    RaisesOnly expected (ofOption error option) := by
  cases option with
  | some value => exact raisesOnly_ok value
  | none => exact raisesOnly_error h

/-- A computation raises what its parts raise. -/
theorem raisesOnly_bind_iff {expected : Error → Prop} {first : Except Error First} {next : First → Except Error Second} :
    (first >>= next).RaisesOnly expected ↔
      first.RaisesOnly expected ∧ ∀ value, first = .ok value → (next value).RaisesOnly expected := by
  cases first with
  | error error =>
      simp only [reduceCtorEq, false_implies, implies_true, and_true]
      constructor
      · intro raises other hOther
        exact raises other (congrArg Except.error (Except.error.inj hOther))
      · intro raises other hOther
        exact raises other (congrArg Except.error (Except.error.inj hOther))
  | ok value =>
      simp only [ok.injEq, forall_eq']
      exact (and_iff_right (raisesOnly_ok value)).symm

theorem RaisesOnly.bind {expected : Error → Prop} {first : Except Error First} {next : First → Except Error Second}
    (hFirst : first.RaisesOnly expected) (hNext : ∀ value, first = .ok value → (next value).RaisesOnly expected) :
    (first >>= next).RaisesOnly expected :=
  raisesOnly_bind_iff.mpr ⟨hFirst, hNext⟩

theorem raisesOnly_mapError_iff {Other : Type} {change : Error → Other} {expected : Other → Prop}
    {first : Except Error First} :
    (first.mapError change).RaisesOnly expected ↔ first.RaisesOnly fun error => expected (change error) := by
  cases first with
  | error error =>
      constructor
      · intro h other hOther
        cases hOther
        exact h _ rfl
      · intro h other hOther
        cases hOther
        exact h _ rfl
  | ok value => exact ⟨fun _ => raisesOnly_ok value, fun _ => raisesOnly_ok value⟩

end Except

/-- A program over a shared state: it returns or raises, and in both cases
leaves a state behind. -/
def Routine (State Error Value : Type) : Type := State → Except Error Value × State

namespace Routine

variable {State Error Value Next : Type}

instance : Monad (Routine State Error) where
  pure value := fun state => (.ok value, state)
  bind routine next := fun state =>
    match routine state with
    | (.ok value, after) => next value after
    | (.error error, after) => (.error error, after)

/-- One atomic write transaction. -/
def transaction (body : State → Except Error (State × Value)) : Routine State Error Value :=
  fun state => match body state with
    | .ok (after, value) => (.ok value, after)
    | .error error => (.error error, state)

/-- A read of the state, or a computation that only may raise. -/
def reading (body : State → Except Error Value) : Routine State Error Value :=
  fun state => (body state, state)

/-- The cleanup is made in every outcome. -/
def ensuring (routine : Routine State Error Value) (cleanup : State → State) : Routine State Error Value :=
  fun state => ((routine state).1, cleanup (routine state).2)

/-- The routine returns this value and leaves this state. -/
def Returns (routine : Routine State Error Value) (before : State) (value : Value)
    (after : State) : Prop :=
  routine before = (.ok value, after)

/-- A run without an exception returns a value. -/
theorem returns_of_toBool {routine : Routine State Error Value} {before : State}
    (h : (routine before).1.toBool = true) : ∃ value after, Returns routine before value after := by
  cases hRun : routine before with
  | mk outcome after =>
      cases outcome with
      | ok value => exact ⟨value, after, hRun⟩
      | error error =>
          rw [hRun] at h
          cases h

@[simp] theorem returns_pure {before after : State} {value result : Value} :
    Returns (pure value : Routine State Error Value) before result after ↔
      value = result ∧ before = after := by
  simp [Returns, pure]

@[simp] theorem returns_bind {routine : Routine State Error Value}
    {next : Value → Routine State Error Next} {before after : State} {result : Next} :
    Returns (routine >>= next) before result after ↔
      ∃ value middle, Returns routine before value middle ∧ Returns (next value) middle result after := by
  simp only [Returns, bind]
  cases h : routine before with
  | mk outcome middle =>
      cases outcome with
      | ok value =>
          constructor
          · intro hNext
            exact ⟨value, middle, rfl, hNext⟩
          · rintro ⟨_, _, hEq, hNext⟩
            cases hEq
            exact hNext
      | error error => simp

@[simp] theorem returns_transaction {body : State → Except Error (State × Value)}
    {before after : State} {value : Value} :
    Returns (transaction body) before value after ↔ body before = .ok (after, value) := by
  simp only [Returns, transaction]
  cases h : body before with
  | ok result =>
      cases result
      simp [and_comm]
  | error error => simp

@[simp] theorem returns_reading {body : State → Except Error Value} {before after : State}
    {value : Value} :
    Returns (reading body) before value after ↔ body before = .ok value ∧ before = after := by
  simp [Returns, reading]

/-- A run goes on from what its first part returns. -/
theorem bind_of_returns {routine : Routine State Error Value} {next : Value → Routine State Error Next}
    {before middle : State} {value : Value} (h : Returns routine before value middle) :
    (routine >>= next) before = next value middle := by
  simp only [bind]
  rw [h]

/-- Nothing that only reads changes the state. -/
theorem reading_bind_state {body : State → Except Error Value} {next : Value → Routine State Error Next} {state : State}
    (h : ∀ value, (next value state).2 = state) : ((reading body >>= next) state).2 = state := by
  simp only [bind, reading]
  cases body state with
  | ok value => exact h value
  | error error => rfl

/-- The routine raises this error and leaves this state. -/
def Raises (routine : Routine State Error Value) (before : State) (error : Error) (after : State) :
    Prop :=
  routine before = (.error error, after)

/-- Nothing follows an exception. -/
theorem Raises.bind {routine : Routine State Error Value} {before after : State} {error : Error}
    (hRaises : Raises routine before error after) (next : Value → Routine State Error Next) :
    Raises (routine >>= next) before error after := by
  change (match routine before with
    | (.ok value, after) => next value after
    | (.error error, after) => (.error error, after)) = _
  rw [hRaises]

/-- An exception after a returning routine is one of the whole. -/
theorem Returns.raises {routine : Routine State Error Value} {next : Value → Routine State Error Next}
    {before middle after : State} {value : Value} {error : Error}
    (hReturns : Returns routine before value middle) (hRaises : Raises (next value) middle error after) :
    Raises (routine >>= next) before error after := by
  change (match routine before with
    | (.ok value, after) => next value after
    | (.error error, after) => (.error error, after)) = _
  rw [hReturns]
  exact hRaises

theorem raises_reading {body : State → Except Error Value} {state : State} {error : Error}
    (hBody : body state = .error error) : Raises (reading body) state error state := by
  simp [Raises, reading, hBody]

@[simp] theorem raises_reading_iff {body : State → Except Error Value} {before after : State} {error : Error} :
    Raises (reading body) before error after ↔ body before = .error error ∧ before = after := by
  simp [Raises, reading]

/-- A sequence raises in its first part or in what follows it. -/
theorem raises_bind_iff {routine : Routine State Error Value} {next : Value → Routine State Error Next}
    {before after : State} {error : Error} :
    Raises (routine >>= next) before error after ↔ Raises routine before error after ∨
      ∃ value middle, Returns routine before value middle ∧ Raises (next value) middle error after := by
  constructor
  · intro h
    cases hRun : routine before with
    | mk outcome middle =>
        cases outcome with
        | ok value => exact Or.inr ⟨value, middle, hRun, (bind_of_returns hRun).symm.trans h⟩
        | error raised =>
            have hRaises : Raises routine before raised middle := hRun
            have hSame := (hRaises.bind next).symm.trans h
            obtain ⟨hError, rfl⟩ := Prod.mk.inj hSame
            obtain rfl := Except.error.inj hError
            exact Or.inl hRun
  · rintro (hRaises | ⟨value, middle, hReturns, hRaises⟩)
    · exact hRaises.bind next
    · exact hReturns.raises hRaises

theorem not_raises_pure {before after : State} {value : Value} {error : Error} :
    ¬ Raises (pure value : Routine State Error Value) before error after := by
  simp [Raises, pure]

/-- From a state with the precondition, the routine returns a value and a state
with the postcondition, or raises in a state with the exceptional one. -/
def Triple (pre : State → Prop) (routine : Routine State Error Value) (post : Value → State → Prop)
    (raised : State → Prop) : Prop :=
  ∀ state, pre state → match routine state with
    | (.ok value, after) => post value after
    | (.error _, after) => raised after

section
variable {pre raised : State → Prop} {post : Value → State → Prop}

theorem triple_pure {value : Value} (h : ∀ state, pre state → post value state) :
    Triple pre (pure value : Routine State Error Value) post raised := h

theorem triple_reading {body : State → Except Error Value}
    (hReturns : ∀ state value, pre state → body state = .ok value → post value state)
    (hRaises : ∀ state, pre state → raised state) : Triple pre (reading body) post raised := by
  intro state hPre
  simp only [reading]
  cases hBody : body state with
  | ok value => exact hReturns state value hPre hBody
  | error error => exact hRaises state hPre

/-- A transaction that raises leaves its precondition's state behind. -/
theorem triple_transaction {body : State → Except Error (State × Value)}
    (hReturns : ∀ before after value, pre before → body before = .ok (after, value) →
      post value after)
    (hRaises : ∀ state, pre state → raised state) : Triple pre (transaction body) post raised := by
  intro state hPre
  simp only [transaction]
  cases hBody : body state with
  | ok result => exact hReturns state result.1 result.2 hPre hBody
  | error error => exact hRaises state hPre

theorem triple_bind {routine : Routine State Error Value} {next : Value → Routine State Error Next}
    {final : Next → State → Prop} (middle : Value → State → Prop)
    (hFirst : Triple pre routine middle raised)
    (hNext : ∀ value, Triple (middle value) (next value) final raised) :
    Triple pre (routine >>= next) final raised := by
  intro state hPre
  have hMiddle := hFirst state hPre
  simp only [bind]
  cases hRun : routine state with
  | mk outcome after =>
      rw [hRun] at hMiddle
      cases outcome with
      | ok value => exact hNext value after hMiddle
      | error error => exact hMiddle

/-- A loop keeps what each of its steps keeps. -/
theorem triple_forM {Item : Type} {action : Item → Routine State Error Unit} {items : List Item}
    {invariant : State → Prop} (h : ∀ item ∈ items, Triple invariant (action item) (fun _ => invariant) raised) :
    Triple invariant (items.forM action) (fun _ => invariant) raised := by
  induction items with
  | nil => exact fun state hState => hState
  | cons item rest ih =>
      refine triple_bind (fun _ => invariant) (h item List.mem_cons_self) ?_
      exact fun _ => ih fun other hOther => h other (List.mem_cons_of_mem _ hOther)

theorem triple_ensuring {routine : Routine State Error Value} {cleanup : State → State}
    (hRoutine : Triple pre routine (fun value state => post value (cleanup state))
      fun state => raised (cleanup state)) : Triple pre (routine.ensuring cleanup) post raised := by
  intro state hPre
  have hEnd := hRoutine state hPre
  simp only [ensuring]
  cases hRun : routine state with
  | mk outcome after =>
      rw [hRun] at hEnd
      cases outcome with
      | ok value => exact hEnd
      | error error => exact hEnd

/-- A part of the precondition that does not speak of the state is a hypothesis. -/
theorem triple_assume {routine : Routine State Error Value} {condition : Prop}
    (h : condition → Triple pre routine post raised) :
    Triple (fun state => pre state ∧ condition) routine post raised :=
  fun state hPre => h hPre.2 state hPre.1

theorem triple_of_outcome {routine : Routine State Error Value} {pre invariant : State → Prop}
    (h : ∀ state, pre state → invariant (routine state).2) :
    Triple pre routine (fun _ => invariant) invariant := by
  intro state hPre
  have hAfter := h state hPre
  cases hRun : routine state with
  | mk outcome after =>
      rw [hRun] at hAfter
      cases outcome with
      | ok value => exact hAfter
      | error error => exact hAfter

theorem Triple.raising {routine : Routine State Error Value} {pre raised weaker : State → Prop}
    {post : Value → State → Prop} (triple : Triple pre routine post raised)
    (h : ∀ state, raised state → weaker state) : Triple pre routine post weaker := by
  intro state hPre
  have hOutcome := triple state hPre
  cases hRun : routine state with
  | mk outcome after =>
      rw [hRun] at hOutcome
      cases outcome with
      | ok value => exact hOutcome
      | error error => exact h after hOutcome

theorem Triple.returning {routine : Routine State Error Value} {pre raised : State → Prop}
    {post weaker : Value → State → Prop} (triple : Triple pre routine post raised)
    (h : ∀ value state, post value state → weaker value state) : Triple pre routine weaker raised := by
  intro state hPre
  have hOutcome := triple state hPre
  cases hRun : routine state with
  | mk outcome after =>
      rw [hRun] at hOutcome
      cases outcome with
      | ok value => exact h value after hOutcome
      | error error => exact hOutcome

/-- What a triple says of a run that returns. -/
theorem Triple.returns {routine : Routine State Error Value} {pre raised : State → Prop}
    {post : Value → State → Prop} (triple : Triple pre routine post raised) {before after : State} {value : Value}
    (hPre : pre before) (h : Returns routine before value after) : post value after := by
  have hOutcome := triple before hPre
  rw [h] at hOutcome
  exact hOutcome

/-- What holds in every outcome holds afterwards. -/
theorem Triple.outcome {routine : Routine State Error Value} {invariant : State → Prop}
    (triple : Triple pre routine (fun _ => invariant) invariant) {state : State} (hPre : pre state) :
    invariant (routine state).2 := by
  have hOutcome := triple state hPre
  cases hRun : routine state with
  | mk outcome after =>
      rw [hRun] at hOutcome
      cases outcome with
      | ok value => exact hOutcome
      | error error => exact hOutcome

end

end Routine
