import VouchSpec.Library.Pool

/-! Proof outlines of programs that run beside others. Each assertion of an
outline is one that the other threads keep; what a thread guarantees of its own
steps is what the others rely on. -/

namespace Program

variable {State Error Value Next : Type}

/-- An assertion that no step of another thread makes false. -/
def Stable (invariant : State → Prop) (rely : State → State → Prop) (assertion : State → Prop) : Prop :=
  ∀ before after, invariant before → invariant after → rely before after → assertion before →
    assertion after

/-- From states with the precondition every step of the program keeps the
invariant and the guarantee, and the outcome has the postcondition. -/
inductive Outline (invariant : State → Prop) (rely guarantee : State → State → Prop)
    (post : Except Error Value → State → Prop) : (State → Prop) → Program State Error Value → Prop where
  | ended {pre : State → Prop} {outcome : Except Error Value}
      (hPost : ∀ state, invariant state → pre state → post outcome state) :
      Outline invariant rely guarantee post pre (.ended outcome)
  | atomic {pre : State → Prop} {effect : State → State} {next : State → Program State Error Value}
      (middle : State → State → Prop)
      (hEffect : ∀ state, invariant state → pre state →
        invariant (effect state) ∧ guarantee state (effect state) ∧ middle state (effect state))
      (hStable : ∀ state, invariant state → pre state → Stable invariant rely (middle state))
      (hNext : ∀ state, invariant state → pre state →
        Outline invariant rely guarantee post (middle state) (next state)) :
      Outline invariant rely guarantee post pre (.atomic effect next)

/-- The postcondition of a program that may raise. -/
def Ends (returned : Value → State → Prop) (raised : State → Prop) : Except Error Value → State → Prop
  | .ok value => returned value
  | .error _ => raised

theorem Stable.ends {invariant : State → Prop} {rely : State → State → Prop}
    {returned : Value → State → Prop} {raised : State → Prop}
    (hReturned : ∀ value, Stable invariant rely (returned value)) (hRaised : Stable invariant rely raised) :
    ∀ outcome : Except Error Value, Stable invariant rely (Ends returned raised outcome)
  | .ok value => hReturned value
  | .error _ => hRaised

namespace Outline

variable {invariant : State → Prop} {rely guarantee : State → State → Prop}
  {post : Except Error Value → State → Prop} {pre weaker : State → Prop}

/-- A stronger precondition. -/
theorem weaken {program : Program State Error Value}
    (outline : Outline invariant rely guarantee post weaker program)
    (hPre : ∀ state, invariant state → pre state → weaker state) :
    Outline invariant rely guarantee post pre program := by
  cases outline with
  | ended hPost => exact .ended fun state hState h => hPost state hState (hPre state hState h)
  | atomic middle hEffect hStable hNext =>
      exact .atomic middle (fun state hState h => hEffect state hState (hPre state hState h))
        (fun state hState h => hStable state hState (hPre state hState h))
        (fun state hState h => hNext state hState (hPre state hState h))

/-- A weaker postcondition. -/
theorem conclude {program : Program State Error Value} {weak : Except Error Value → State → Prop}
    (outline : Outline invariant rely guarantee post pre program)
    (hPost : ∀ outcome state, invariant state → post outcome state → weak outcome state) :
    Outline invariant rely guarantee weak pre program := by
  induction outline with
  | ended h => exact .ended fun state hState hPre => hPost _ state hState (h state hState hPre)
  | atomic middle hEffect hStable _ ih => exact .atomic middle hEffect hStable ih

theorem andThen {program : Program State Error Value} {next : Value → Program State Error Next}
    {middle : Value → State → Prop} {returned : Next → State → Prop} {raised : State → Prop}
    (outline : Outline invariant rely guarantee (Ends middle raised) pre program)
    (hNext : ∀ value, Outline invariant rely guarantee (Ends returned raised) (middle value) (next value)) :
    Outline invariant rely guarantee (Ends returned raised) pre (program >>= next) := by
  induction outline with
  | @ended pre outcome hPost =>
      cases outcome with
      | ok value => exact (hNext value).weaken hPost
      | error error => exact .ended hPost
  | atomic middle hEffect hStable _ ih => exact .atomic middle hEffect hStable ih

theorem rescue {program : Program State Error Value} {handler : Error → Program State Error Value}
    {returned : Value → State → Prop} {raised handled : State → Prop}
    (outline : Outline invariant rely guarantee (Ends returned raised) pre program)
    (hHandler : ∀ error, Outline invariant rely guarantee (Ends returned handled) raised (handler error)) :
    Outline invariant rely guarantee (Ends returned handled) pre (program.rescue handler) := by
  induction outline with
  | @ended pre outcome hPost =>
      cases outcome with
      | ok value => exact .ended hPost
      | error error => exact (hHandler error).weaken hPost
  | atomic middle hEffect hStable _ ih => exact .atomic middle hEffect hStable ih

theorem check {outcome : Except Error Value}
    (hPost : ∀ state, invariant state → pre state → post outcome state) :
    Outline invariant rely guarantee post pre (check outcome) := .ended hPost

/-- One atomic step, which leaves an assertion that the others keep. -/
theorem once {routine : Routine State Error Value}
    (hRun : ∀ state, invariant state → pre state → invariant (routine state).2 ∧
      guarantee state (routine state).2 ∧ post (routine state).1 (routine state).2)
    (hStable : ∀ outcome, Stable invariant rely (post outcome)) :
    Outline invariant rely guarantee post pre (once routine) :=
  .atomic (fun state => post (routine state).1) hRun (fun _ _ _ => hStable _)
    fun _ _ _ => .ended fun _ _ => id

/-- One atomic read. -/
theorem read {body : State → Except Error Value} (hRefl : ∀ state, guarantee state state)
    (hRead : ∀ state, invariant state → pre state → post (body state) state)
    (hStable : ∀ outcome, Stable invariant rely (post outcome)) :
    Outline invariant rely guarantee post pre (read body) :=
  .atomic (fun state => post (body state)) (fun state hState hPre => ⟨hState, hRefl state, hRead state hState hPre⟩)
    (fun _ _ _ => hStable _) fun _ _ _ => .ended fun _ _ => id

/-- One atomic transaction, which does nothing where it raises. -/
theorem call {body : State → Except Error (State × Value)} {returned : Value → State → Prop} {raised : State → Prop}
    (hRefl : ∀ state, guarantee state state)
    (hBody : ∀ state after value, invariant state → pre state → body state = .ok (after, value) →
      invariant after ∧ guarantee state after ∧ returned value after)
    (hRaised : ∀ state, invariant state → pre state → raised state)
    (hStable : ∀ outcome : Except Error Value, Stable invariant rely (Ends returned raised outcome)) :
    Outline invariant rely guarantee (Ends returned raised) pre (call body) := by
  refine .atomic (fun state => Ends returned raised (Prod.snd <$> body state)) ?_ (fun _ _ _ => hStable _)
    fun _ _ _ => .ended fun _ _ => id
  intro state hState hPre
  cases hEnd : body state with
  | ok result => exact hBody state result.1 result.2 hState hPre hEnd
  | error error => exact ⟨hState, hRefl state, hRaised state hState hPre⟩

/-- A program that runs without interruption needs nothing of the others. -/
theorem run {program : Program State Error Value} (outline : Outline invariant rely guarantee post pre program)
    {state : State} (hState : invariant state) (hPre : pre state) :
    invariant (program.run state).2 ∧ post (program.run state).1 (program.run state).2 := by
  induction outline generalizing state with
  | ended hPost => exact ⟨hState, hPost state hState hPre⟩
  | atomic middle hEffect _ _ ih =>
      obtain ⟨hAfter, -, hMiddle⟩ := hEffect state hState hPre
      exact ih state hState hPre hAfter hMiddle

end Outline

end Program

namespace Pool

open Program

variable {Thread State Error Value : Type}

/-- The invariant holds, and every thread has an outline of what it still does. -/
structure Outlined (invariant : State → Prop) (rely guarantee : Thread → State → State → Prop)
    (post : Thread → Except Error Value → State → Prop) (pool : Pool Thread State Error Value) : Prop where
  state : invariant pool.state
  threads : ∀ thread, ∃ pre, Stable invariant (rely thread) pre ∧ pre pool.state ∧
    Outline invariant (rely thread) (guarantee thread) (post thread) pre (pool.threads thread)

variable {invariant : State → Prop} {rely guarantee : Thread → State → State → Prop}
  {post : Thread → Except Error Value → State → Prop} {pool : Pool Thread State Error Value}

/-- A step from outside that every thread relies on. -/
theorem Outlined.disturb (outlined : Outlined invariant rely guarantee post pool) {after : State}
    (hAfter : invariant after) (hRely : ∀ thread, rely thread pool.state after) :
    Outlined invariant rely guarantee post { pool with state := after } := by
  refine ⟨hAfter, fun thread => ?_⟩
  obtain ⟨pre, hStable, hPre, outline⟩ := outlined.threads thread
  exact ⟨pre, hStable, hStable _ _ outlined.state hAfter (hRely thread) hPre, outline⟩

/-- The outcome of a thread that has ended has its postcondition. -/
theorem Outlined.outcome (outlined : Outlined invariant rely guarantee post pool) {thread : Thread}
    {outcome : Except Error Value} (hEnded : (pool.threads thread).outcome? = some outcome) :
    post thread outcome pool.state := by
  obtain ⟨pre, -, hPre, outline⟩ := outlined.threads thread
  cases hThread : pool.threads thread with
  | ended last =>
      rw [hThread] at hEnded outline
      obtain rfl : last = outcome := Option.some.inj hEnded
      cases outline with
      | ended hPost => exact hPost _ outlined.state hPre
  | atomic effect next =>
      rw [hThread] at hEnded
      cases hEnded

/-- A step of one thread, when what it guarantees is what the others rely on. -/
theorem Outlined.advance [DecidableEq Thread] (outlined : Outlined invariant rely guarantee post pool)
    (hCompatible : ∀ mine other before after, other ≠ mine → invariant before → invariant after →
      guarantee mine before after → rely other before after) (thread : Thread) :
    Outlined invariant rely guarantee post (pool.advance thread) ∧
      (pool.advance thread = pool ∨ (pool.threads thread).outcome? = none ∧
        guarantee thread pool.state (pool.advance thread).state) := by
  obtain ⟨pre, -, hPre, outline⟩ := outlined.threads thread
  unfold Pool.advance
  cases hThread : pool.threads thread with
  | ended outcome => exact ⟨outlined, Or.inl rfl⟩
  | atomic effect next =>
      rw [hThread] at outline
      cases outline with
      | atomic middle hEffect hStable hNext =>
          obtain ⟨hState, hGuarantee, hMiddle⟩ := hEffect _ outlined.state hPre
          refine ⟨⟨hState, fun other => ?_⟩, Or.inr ⟨rfl, hGuarantee⟩⟩
          by_cases hOther : other = thread
          · subst hOther
            refine ⟨middle pool.state, hStable _ outlined.state hPre, hMiddle, ?_⟩
            simpa only [Function.update_self] using hNext _ outlined.state hPre
          · obtain ⟨kept, hKept, hHolds, rest⟩ := outlined.threads other
            refine ⟨kept, hKept, ?_, ?_⟩
            · exact hKept _ _ outlined.state hState
                (hCompatible thread other _ _ hOther outlined.state hState hGuarantee) hHolds
            · simpa only [Function.update_of_ne hOther] using rest

theorem run_append [DecidableEq Thread] (first second : List Thread) :
    pool.run (first ++ second) = (pool.run first).run second :=
  Runs.run_append pool first second

/-- A run relates its two ends as the steps of its threads do. -/
theorem Outlined.run [DecidableEq Thread] (outlined : Outlined invariant rely guarantee post pool)
    (hCompatible : ∀ mine other before after, other ≠ mine → invariant before → invariant after →
      guarantee mine before after → rely other before after) {related : State → State → Prop}
    (hRefl : ∀ state, related state state)
    (hTrans : ∀ first second third, related first second → related second third → related first third)
    (hStep : ∀ thread before after, guarantee thread before after → related before after)
    (schedule : List Thread) :
    Outlined invariant rely guarantee post (pool.run schedule) ∧ related pool.state (pool.run schedule).state := by
  induction schedule generalizing pool with
  | nil => exact ⟨outlined, hRefl _⟩
  | cons thread rest ih =>
      obtain ⟨hNext, hMoved⟩ := outlined.advance hCompatible thread
      obtain ⟨hLast, hRest⟩ := ih hNext
      refine ⟨hLast, hTrans _ _ _ ?_ hRest⟩
      rcases hMoved with hSame | ⟨-, hGuarantee⟩
      · rw [hSame]
        exact hRefl _
      · exact hStep _ _ _ hGuarantee

/-- A thread that takes no step is where it was. -/
theorem run_threads_of_notMem [DecidableEq Thread] {schedule : List Thread} {thread : Thread}
    (hAbsent : thread ∉ schedule) : (pool.run schedule).threads thread = pool.threads thread := by
  induction schedule generalizing pool with
  | nil => rfl
  | cons first rest ih =>
      obtain ⟨hFirst, hRest⟩ := List.ne_and_not_mem_of_not_mem_cons hAbsent
      have hStep : (pool.advance first).threads thread = pool.threads thread := by
        unfold Pool.advance
        split
        · rfl
        · exact Function.update_of_ne hFirst _ _
      exact (ih hRest).trans hStep

/-- An ended thread keeps its outcome. -/
theorem run_outcome [DecidableEq Thread] {schedule : List Thread} {thread : Thread}
    {outcome : Except Error Value} (hEnded : (pool.threads thread).outcome? = some outcome) :
    ((pool.run schedule).threads thread).outcome? = some outcome := by
  induction schedule generalizing pool with
  | nil => exact hEnded
  | cons first rest ih =>
      apply ih
      unfold Pool.advance
      split
      · exact hEnded
      · next hThread =>
          have hOther : thread ≠ first := by
            intro hSame
            rw [hSame, hThread] at hEnded
            cases hEnded
          simpa only [Function.update_of_ne hOther] using hEnded

end Pool
