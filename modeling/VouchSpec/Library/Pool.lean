import Mathlib.Logic.Function.Basic
import VouchSpec.Library.Program

/-! Programs that run side by side over one state, in any interleaving of their
atomic steps, and what the threads of one owner can see of the others. -/

structure Pool (Thread State Error Value : Type) where
  state : State
  threads : Thread → Program State Error Value

namespace Program

variable {State Error Value Next : Type}

/-- The outcome of a program that has ended. -/
def outcome? : Program State Error Value → Option (Except Error Value)
  | ended outcome => some outcome
  | atomic _ _ => none

/-- Two programs that take the same course in states that agree. -/
inductive Alike (agree : State → State → Prop) (post : Value → Prop) :
    Program State Error Value → Program State Error Value → Prop where
  | returned {value : Value} (hPost : post value) :
      Alike agree post (ended (.ok value)) (ended (.ok value))
  | raised (error : Error) : Alike agree post (ended (.error error)) (ended (.error error))
  | atomic {effect change : State → State} {next rest : State → Program State Error Value}
      (hEffect : ∀ left right, agree left right → agree (effect left) (change right))
      (hNext : ∀ left right, agree left right → Alike agree post (next left) (rest right)) :
      Alike agree post (atomic effect next) (atomic change rest)

/-- A program whose steps the other side of the agreement does not notice. -/
inductive Quiet (agree : State → State → Prop) (post : Value → Prop) :
    Program State Error Value → Prop where
  | returned {value : Value} (hPost : post value) : Quiet agree post (ended (.ok value))
  | raised (error : Error) : Quiet agree post (ended (.error error))
  | atomic {effect : State → State} {next : State → Program State Error Value}
      (hEffect : ∀ left right, agree left right → agree (effect left) right)
      (hNext : ∀ left right, agree left right → Quiet agree post (next left)) :
      Quiet agree post (atomic effect next)

section
variable {agree : State → State → Prop} {post : Value → Prop} {final : Next → Prop}

theorem Alike.andThen {left right : Program State Error Value}
    {next rest : Value → Program State Error Next} (alike : Alike agree post left right)
    (hNext : ∀ value, post value → Alike agree final (next value) (rest value)) :
    Alike agree final (left >>= next) (right >>= rest) := by
  induction alike with
  | returned hPost => exact hNext _ hPost
  | raised error => exact .raised error
  | atomic hEffect _ ih => exact .atomic hEffect ih

theorem Quiet.andThen {program : Program State Error Value} {next : Value → Program State Error Next}
    (quiet : Quiet agree post program) (hNext : ∀ value, post value → Quiet agree final (next value)) :
    Quiet agree final (program >>= next) := by
  induction quiet with
  | returned hPost => exact hNext _ hPost
  | raised error => exact .raised error
  | atomic hEffect _ ih => exact .atomic hEffect ih

theorem Alike.check {outcome : Except Error Value} (hPost : ∀ value, outcome = .ok value → post value) :
    Alike agree post (check outcome) (check outcome) := by
  cases outcome with
  | ok value => exact .returned (hPost value rfl)
  | error error => exact .raised error

theorem Quiet.check {outcome : Except Error Value} (hPost : ∀ value, outcome = .ok value → post value) :
    Quiet agree post (check outcome : Program State Error Value) := by
  cases outcome with
  | ok value => exact .returned (hPost value rfl)
  | error error => exact .raised error

/-- A read that shows the same in states that agree. -/
theorem Alike.read {body : State → Except Error Value}
    (hSame : ∀ left right, agree left right → body left = body right)
    (hPost : ∀ left right value, agree left right → body left = .ok value → post value) :
    Alike agree post (read body) (read body) := by
  refine .atomic (fun _ _ => id) fun left right hAgree => ?_
  rw [← hSame left right hAgree]
  exact Alike.check (hPost left right · hAgree)

theorem Quiet.read {body : State → Except Error Value}
    (hPost : ∀ left right value, agree left right → body left = .ok value → post value) :
    Quiet agree post (read body) :=
  .atomic (fun _ _ => id) fun left right hAgree => Quiet.check (hPost left right · hAgree)

/-- The two ends of a transaction in states that agree. -/
inductive SameEnd (agree : State → State → Prop) (post : Value → Prop) :
    Except Error (State × Value) → Except Error (State × Value) → Prop where
  | ok {left right : State} {value : Value} (hAgree : agree left right) (hPost : post value) :
      SameEnd agree post (.ok (left, value)) (.ok (right, value))
  | error (error : Error) : SameEnd agree post (.error error) (.error error)

theorem Alike.call {body : State → Except Error (State × Value)}
    (hBody : ∀ left right, agree left right → SameEnd agree post (body left) (body right)) :
    Alike agree post (call body) (call body) := by
  refine .atomic (fun left right hAgree => ?_) fun left right hAgree => ?_
  · have hEnd := hBody left right hAgree
    generalize body left = first at hEnd
    generalize body right = second at hEnd
    cases hEnd with
    | ok hAfter hPost => exact hAfter
    | error error => exact hAgree
  · have hEnd := hBody left right hAgree
    generalize body left = first at hEnd
    generalize body right = second at hEnd
    cases hEnd with
    | ok hAfter hPost => exact .returned hPost
    | error error => exact .raised error

theorem Quiet.call {body : State → Except Error (State × Value)}
    (hBody : ∀ left right after value, agree left right → body left = .ok (after, value) →
      agree after right ∧ post value) :
    Quiet agree post (call body) := by
  refine .atomic (fun left right hAgree => ?_) fun left right hAgree => ?_
  · split
    · next hRun => exact (hBody left right _ _ hAgree hRun).1
    · exact hAgree
  · cases hRun : body left with
    | ok result => exact .returned (hBody left right result.1 result.2 hAgree hRun).2
    | error error => exact .raised error

end

end Program

namespace Pool

open Program

variable {Thread State Error Value : Type} [DecidableEq Thread]

/-- One atomic step of a thread; a thread that has ended takes none. -/
def advance (pool : Pool Thread State Error Value) (thread : Thread) : Pool Thread State Error Value :=
  match pool.threads thread with
  | .ended _ => pool
  | .atomic effect next =>
      { state := effect pool.state
        threads := Function.update pool.threads thread (next pool.state) }

/-- The steps of a schedule, each of the thread that it names. -/
def run (pool : Pool Thread State Error Value) (schedule : List Thread) : Pool Thread State Error Value :=
  Runs.run advance pool schedule

/-- A thread that is left alone does what its program does without interruption. -/
theorem run_alone (pool : Pool Thread State Error Value) (thread : Thread) :
    ∃ steps : Nat, (pool.run (List.replicate steps thread)).state = ((pool.threads thread).run pool.state).2 ∧
      (pool.run (List.replicate steps thread)).threads thread = .ended ((pool.threads thread).run pool.state).1 := by
  generalize hProgram : pool.threads thread = program
  induction program generalizing pool with
  | ended outcome => exact ⟨0, rfl, hProgram⟩
  | atomic effect next ih =>
      have hAdvance : pool.advance thread = { state := effect pool.state
                                              threads := Function.update pool.threads thread (next pool.state) } := by
        unfold advance
        rw [hProgram]
      have hNext : (pool.advance thread).threads thread = next pool.state := by
        rw [hAdvance]
        exact Function.update_self thread _ _
      have hState : (pool.advance thread).state = effect pool.state := congrArg Pool.state hAdvance
      obtain ⟨steps, hLast, hEnded⟩ := ih pool.state (pool.advance thread) hNext
      rw [hState] at hLast hEnded
      exact ⟨steps + 1, hLast, hEnded⟩

/-- Every thread goes by a relation of its own between a state and the next. -/
def Obeys (related : Thread → State → State → Prop) (pool : Pool Thread State Error Value) : Prop :=
  ∀ thread, Follows (related thread) (pool.threads thread)

theorem Obeys.advance {related : Thread → State → State → Prop} {pool : Pool Thread State Error Value}
    (obeys : pool.Obeys related) (thread : Thread) : (pool.advance thread).Obeys related ∧
      (pool.advance thread = pool ∨ related thread pool.state (pool.advance thread).state) := by
  have hProgram := obeys thread
  unfold Pool.advance
  cases hThread : pool.threads thread with
  | ended outcome => exact ⟨obeys, Or.inl rfl⟩
  | atomic effect next =>
      rw [hThread] at hProgram
      cases hProgram with
      | atomic hEffect hNext =>
          refine ⟨fun other => ?_, Or.inr (hEffect pool.state)⟩
          dsimp only
          by_cases hOther : other = thread
          · subst hOther
            rw [Function.update_self]
            exact hNext pool.state
          · rw [Function.update_of_ne hOther]
            exact obeys other

/-- What a pool shares with one in which only some of the threads have run. -/
structure Beside (agree : State → State → Prop) (mine : Thread → Prop)
    (left right : Pool Thread State Error Value) : Prop where
  state : agree left.state right.state
  shared : ∀ thread, mine thread → Alike agree (fun _ => True) (left.threads thread) (right.threads thread)
  others : ∀ thread, ¬mine thread → Quiet agree (fun _ => True) (left.threads thread)

section
variable {agree : State → State → Prop} {mine : Thread → Prop}
  {left right : Pool Thread State Error Value}

/-- Both sides take a step of a thread that they share. -/
theorem Beside.advance (beside : Beside agree mine left right) {thread : Thread} (hMine : mine thread) :
    Beside agree mine (left.advance thread) (right.advance thread) := by
  have hAlike := beside.shared thread hMine
  unfold Pool.advance
  cases hLeft : left.threads thread with
  | ended outcome =>
      rw [hLeft] at hAlike
      cases hRight : right.threads thread with
      | ended other => exact beside
      | atomic change rest =>
          rw [hRight] at hAlike
          cases hAlike
  | atomic effect next =>
      rw [hLeft] at hAlike
      cases hRight : right.threads thread with
      | ended other =>
          rw [hRight] at hAlike
          cases hAlike
      | atomic change rest =>
          rw [hRight] at hAlike
          cases hAlike with
          | atomic hEffect hNext =>
              refine ⟨hEffect _ _ beside.state, ?_, ?_⟩
              · intro other hOther
                by_cases hSame : other = thread
                · subst hSame
                  simpa only [Function.update_self] using hNext _ _ beside.state
                · simpa only [Function.update_of_ne hSame] using beside.shared other hOther
              · intro other hOther
                have hSame : other ≠ thread := by
                  rintro rfl
                  exact hOther hMine
                simpa only [Function.update_of_ne hSame] using beside.others other hOther

/-- A step of another thread goes unnoticed. -/
theorem Beside.skip (beside : Beside agree mine left right) {thread : Thread}
    (hOther : ¬mine thread) : Beside agree mine (left.advance thread) right := by
  have hQuiet := beside.others thread hOther
  unfold Pool.advance
  cases hLeft : left.threads thread with
  | ended outcome => exact beside
  | atomic effect next =>
      rw [hLeft] at hQuiet
      cases hQuiet with
      | atomic hEffect hNext =>
          refine ⟨hEffect _ _ beside.state, ?_, ?_⟩
          · intro other hMine
            have hSame : other ≠ thread := by
              rintro rfl
              exact hOther hMine
            simpa only [Function.update_of_ne hSame] using beside.shared other hMine
          · intro other hNot
            by_cases hSame : other = thread
            · subst hSame
              simpa only [Function.update_self] using hNext _ _ beside.state
            · simpa only [Function.update_of_ne hSame] using beside.others other hNot

/-- The whole schedule beside the part of it that names shared threads. -/
theorem Beside.run [DecidablePred mine] (beside : Beside agree mine left right)
    (schedule : List Thread) :
    Beside agree mine (left.run schedule) (right.run (schedule.filter fun thread => mine thread)) := by
  induction schedule generalizing left right with
  | nil => exact beside
  | cons thread rest ih =>
      by_cases hMine : mine thread
      · rw [List.filter_cons_of_pos (by simpa using hMine)]
        exact ih (beside.advance hMine)
      · rw [List.filter_cons_of_neg (by simpa using hMine)]
        exact ih (beside.skip hMine)

omit [DecidableEq Thread] in
theorem Beside.outcome? (beside : Beside agree mine left right) {thread : Thread}
    (hMine : mine thread) : (left.threads thread).outcome? = (right.threads thread).outcome? := by
  have hAlike := beside.shared thread hMine
  generalize left.threads thread = first at hAlike
  generalize right.threads thread = second at hAlike
  cases hAlike <;> rfl

end

end Pool
