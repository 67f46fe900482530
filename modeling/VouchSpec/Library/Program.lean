import VouchSpec.Library.Routine
import VouchSpec.Library.Runs

/-! Programs over a shared state, cut into their atomic steps. Run without
interruption a program is a routine; between two of its steps anything else
may happen to the state. -/

/-- A program that has ended, or one that takes an atomic step and goes on with
what the step has shown. -/
inductive Program (State Error Value : Type) : Type where
  | ended (outcome : Except Error Value)
  | atomic (effect : State → State) (next : State → Program State Error Value)

namespace Program

variable {State Error Value Next : Type}

/-- Go on with another program after a value; nothing follows an exception. -/
def andThen : Program State Error Value → (Value → Program State Error Next) →
    Program State Error Next
  | ended (.ok value), next => next value
  | ended (.error error), _ => ended (.error error)
  | atomic effect rest, next => atomic effect fun state => (rest state).andThen next

instance : Monad (Program State Error) where
  pure value := ended (.ok value)
  bind := andThen

/-- A computation without access to the state. -/
def check (outcome : Except Error Value) : Program State Error Value := ended outcome

/-- One atomic write transaction. -/
def call (body : State → Except Error (State × Value)) : Program State Error Value :=
  atomic (fun state => match body state with
    | .ok (after, _) => after
    | .error _ => state) fun state => ended (Prod.snd <$> body state)

/-- One read of the state. -/
def read (body : State → Except Error Value) : Program State Error Value :=
  atomic id fun state => ended (body state)

/-- One atomic step that runs a whole routine. -/
def once (routine : Routine State Error Value) : Program State Error Value :=
  atomic (fun state => (routine state).2) fun state => ended (routine state).1

/-- Go on with a handler after an exception. -/
def rescue : Program State Error Value → (Error → Program State Error Value) →
    Program State Error Value
  | ended (.ok value), _ => ended (.ok value)
  | ended (.error error), handler => handler error
  | atomic effect next, handler => atomic effect fun state => (next state).rescue handler

/-- The program without interruption. -/
def run : Program State Error Value → Routine State Error Value
  | ended outcome => fun state => (outcome, state)
  | atomic effect next => fun state => (next state).run (effect state)

@[simp] theorem run_pure (value : Value) :
    (pure value : Program State Error Value).run = (pure value : Routine State Error Value) := rfl

theorem run_andThen (program : Program State Error Value) (next : Value → Program State Error Next) :
    (program.andThen next).run = program.run >>= fun value => (next value).run := by
  induction program with
  | ended outcome =>
      cases outcome with
      | ok value => rfl
      | error error => rfl
  | atomic effect rest ih =>
      funext state
      exact congrFun (ih state) (effect state)

@[simp] theorem run_bind (program : Program State Error Value) (next : Value → Program State Error Next) :
    (program >>= next).run = program.run >>= fun value => (next value).run :=
  run_andThen program next

@[simp] theorem run_check (outcome : Except Error Value) :
    (check outcome : Program State Error Value).run = Routine.reading fun _ => outcome := rfl

@[simp] theorem run_read (body : State → Except Error Value) :
    (read body).run = Routine.reading body := rfl

@[simp] theorem run_call (body : State → Except Error (State × Value)) :
    (call body).run = Routine.transaction body := by
  funext state
  simp only [call, run, Routine.transaction]
  cases body state with
  | ok result => rfl
  | error error => rfl

@[simp] theorem run_once (routine : Routine State Error Value) : (once routine).run = routine := rfl

/-- Every step of the program, taken in any state, relates it to the next. -/
inductive Follows (related : State → State → Prop) : Program State Error Value → Prop where
  | ended (outcome : Except Error Value) : Follows related (ended outcome)
  | atomic {effect : State → State} {next : State → Program State Error Value}
      (hEffect : ∀ state, related state (effect state)) (hNext : ∀ state, Follows related (next state)) :
      Follows related (atomic effect next)

section
variable {related : State → State → Prop}

theorem Follows.andThen {program : Program State Error Value} {next : Value → Program State Error Next}
    (follows : Follows related program) (hNext : ∀ value, Follows related (next value)) :
    Follows related (program >>= next) := by
  induction follows with
  | ended outcome =>
      cases outcome with
      | ok value => exact hNext value
      | error error => exact .ended _
  | atomic hEffect _ ih => exact .atomic hEffect ih

theorem Follows.check (outcome : Except Error Value) :
    Follows related (check outcome : Program State Error Value) := .ended outcome

theorem Follows.read (hRefl : ∀ state, related state state) (body : State → Except Error Value) :
    Follows related (read body) :=
  .atomic hRefl fun _ => .ended _

theorem Follows.call (hRefl : ∀ state, related state state) {body : State → Except Error (State × Value)}
    (hBody : ∀ state after value, body state = .ok (after, value) → related state after) :
    Follows related (call body) := by
  refine .atomic (fun state => ?_) fun _ => .ended _
  split
  · next hResult => exact hBody _ _ _ hResult
  · exact hRefl state

theorem Follows.once {routine : Routine State Error Value} (hRoutine : ∀ state, related state (routine state).2) :
    Follows related (once routine) := .atomic hRoutine fun _ => .ended _

/-- What follows a step need only take up what the step can return. -/
theorem Follows.onceThen {routine : Routine State Error Value} {next : Value → Program State Error Next}
    (hRoutine : ∀ state, related state (routine state).2)
    (hNext : ∀ state value, (routine state).1 = .ok value → Follows related (next value)) :
    Follows related (Program.once routine >>= next) := by
  refine .atomic hRoutine fun state => ?_
  dsimp only
  cases hValue : (routine state).1 with
  | ok value => exact hNext state value hValue
  | error error => exact .ended _

theorem Follows.rescue {program : Program State Error Value} {handler : Error → Program State Error Value}
    (follows : Follows related program) (hHandler : ∀ error, Follows related (handler error)) :
    Follows related (program.rescue handler) := by
  induction follows with
  | ended outcome =>
      cases outcome with
      | ok value => exact .ended _
      | error error => exact hHandler error
  | atomic hEffect _ ih => exact .atomic hEffect ih

/-- A run without interruption relates its two ends. -/
theorem Follows.run {program : Program State Error Value} (follows : Follows related program)
    (hRefl : ∀ state, related state state)
    (hTrans : ∀ first second third, related first second → related second third → related first third)
    (state : State) : related state (program.run state).2 := by
  induction follows generalizing state with
  | ended outcome => exact hRefl state
  | atomic hEffect _ ih => exact hTrans _ _ _ (hEffect state) (ih state _)

end

end Program
