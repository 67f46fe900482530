import Mathlib.Data.List.Induction

/-! Runs of a deterministic step function over an arbitrary sequence of calls,
and the status trails that such runs leave behind. -/

namespace Runs

variable {State Call : Type}

/-- Execute the calls in order. -/
def run (step : State → Call → State) (start : State) (calls : List Call) : State :=
  calls.foldl step start

/-- Some sequence of calls leads from one state to the other. -/
def Reaches (step : State → Call → State) (start finish : State) : Prop :=
  ∃ calls, run step start calls = finish

variable {step : State → Call → State}

theorem run_append (start : State) (first second : List Call) :
    run step start (first ++ second) = run step (run step start first) second := by
  simp [run]

theorem Reaches.refl (state : State) : Reaches step state state := ⟨[], rfl⟩

theorem Reaches.trans {start middle finish : State} (first : Reaches step start middle)
    (second : Reaches step middle finish) : Reaches step start finish := by
  obtain ⟨before, rfl⟩ := first
  obtain ⟨after, rfl⟩ := second
  exact ⟨before ++ after, run_append _ _ _⟩

theorem Reaches.single (state : State) (call : Call) : Reaches step state (step state call) :=
  ⟨[call], rfl⟩

/-- A property kept by every call holds at the end of every run. -/
theorem run_invariant (invariant : State → Prop)
    (hStep : ∀ state call, invariant state → invariant (step state call))
    {start : State} (hStart : invariant start) (calls : List Call) :
    invariant (run step start calls) := by
  induction calls generalizing start with
  | nil => exact hStart
  | cons call rest ih => exact ih (hStep start call hStart)

theorem Reaches.invariant (invariant : State → Prop)
    (hStep : ∀ state call, invariant state → invariant (step state call))
    {start finish : State} (hStart : invariant start) (reach : Reaches step start finish) :
    invariant finish := by
  obtain ⟨calls, rfl⟩ := reach
  exact run_invariant invariant hStep hStart calls

/-- A reflexive, transitive relation that every call respects under an
invariant relates the two ends of every run. -/
theorem Reaches.related (invariant : State → Prop) (related : State → State → Prop)
    (hStep : ∀ state call, invariant state → invariant (step state call))
    (hRefl : ∀ state, related state state)
    (hTrans : ∀ first second third, related first second → related second third →
      related first third)
    (hRelated : ∀ state call, invariant state → related state (step state call))
    {start finish : State} (hStart : invariant start) (reach : Reaches step start finish) :
    related start finish := by
  obtain ⟨calls, rfl⟩ := reach
  induction calls generalizing start with
  | nil => exact hRefl start
  | cons call rest ih =>
      exact hTrans _ _ _ (hRelated start call hStart) (ih (hStep start call hStart))

/-- Where the calls of a run are logged, each entry of the log was made by a
call in a state whose log is the part before it. -/
theorem Reaches.logged {Entry : Type} (log : State → List Entry) (entry : State → Call → Entry)
    (hStep : ∀ state call, log (step state call) = log state ∨
      log (step state call) = log state ++ [entry state call])
    {start finish : State} (reach : Reaches step start finish) (hStart : log start = [])
    {before after : List Entry} {made : Entry} (hLog : log finish = before ++ made :: after) :
    ∃ state call, Reaches step start state ∧ log state = before ∧ made = entry state call ∧
      log (step state call) = before ++ [made] ∧ Reaches step (step state call) finish := by
  obtain ⟨calls, rfl⟩ := reach
  induction calls using List.reverseRecOn generalizing after with
  | nil =>
      rw [show run step start [] = start from rfl, hStart] at hLog
      simp at hLog
  | append_singleton calls call ih =>
      have hRun : run step start (calls ++ [call]) = step (run step start calls) call :=
        run_append _ _ _
      rw [hRun] at hLog ⊢
      have hEarlier : ∀ {rest}, log (run step start calls) = before ++ made :: rest →
          ∃ state earlier, Reaches step start state ∧ log state = before ∧ made = entry state earlier ∧
            log (step state earlier) = before ++ [made] ∧
              Reaches step (step state earlier) (step (run step start calls) call) := by
        intro rest hRest
        obtain ⟨state, earlier, hReach, hBefore, hMade, hAfter, hFinish⟩ := ih hRest
        exact ⟨state, earlier, hReach, hBefore, hMade, hAfter, hFinish.trans (.single _ _)⟩
      rcases hStep (run step start calls) call with hSame | hNew
      · exact hEarlier (hSame.symm.trans hLog)
      · rw [hNew] at hLog
        rcases List.eq_nil_or_concat after with rfl | ⟨rest, last, rfl⟩
        · obtain ⟨hBefore, hMade⟩ := List.append_inj' hLog rfl
          obtain rfl := List.singleton_inj.mp hMade
          exact ⟨_, call, ⟨calls, rfl⟩, hBefore, rfl, hBefore ▸ hNew, .refl _⟩
        · rw [List.concat_eq_append, ← List.cons_append, ← List.append_assoc] at hLog
          exact hEarlier (List.append_inj' hLog rfl).1

/-- Every call of the run meets a condition on the state it is made in. -/
def Meets (step : State → Call → State) (condition : State → Call → Prop) : State → List Call → Prop
  | _, [] => True
  | start, call :: rest => condition start call ∧ Meets step condition (step start call) rest

section
variable {condition : State → Call → Prop}

instance decidableMeets [∀ state call, Decidable (condition state call)] :
    (start : State) → (calls : List Call) → Decidable (Meets step condition start calls)
  | _, [] => isTrue trivial
  | start, call :: rest => @instDecidableAnd _ _ _ (decidableMeets (step start call) rest)

theorem meets_append {start : State} {first second : List Call} :
    Meets step condition start (first ++ second) ↔
      Meets step condition start first ∧ Meets step condition (run step start first) second := by
  induction first generalizing start with
  | nil => simp [Meets, run]
  | cons call rest ih =>
      change condition start call ∧ Meets step condition (step start call) (rest ++ second) ↔
        (condition start call ∧ Meets step condition (step start call) rest) ∧
          Meets step condition (run step (step start call) rest) second
      rw [ih, and_assoc]

/-- A property kept by every call that meets the condition holds at the end of
every run whose calls meet it. -/
theorem Meets.invariant (invariant : State → Prop)
    (hStep : ∀ state call, condition state call → invariant state → invariant (step state call))
    {start : State} {calls : List Call} (meets : Meets step condition start calls)
    (hStart : invariant start) : invariant (run step start calls) := by
  induction calls generalizing start with
  | nil => exact hStart
  | cons call rest ih => exact ih meets.2 (hStep start call meets.1 hStart)

/-- What such a call keeps of a state with the invariant, the run keeps. -/
theorem Meets.kept (invariant property : State → Prop)
    (hStep : ∀ state call, condition state call → invariant state → invariant (step state call))
    (hKept : ∀ state call, condition state call → invariant state → property state →
      property (step state call))
    {start : State} {calls : List Call} (meets : Meets step condition start calls)
    (hStart : invariant start) (hProperty : property start) : property (run step start calls) :=
  (meets.invariant (fun state => invariant state ∧ property state)
    (fun state call hCall h => ⟨hStep state call hCall h.1, hKept state call hCall h.1 h.2⟩)
    ⟨hStart, hProperty⟩).2

end

end Runs

namespace Trail

variable {Status : Type}

/-- A trail of recorded moves is linked from `first` to `last` when every
move starts where the one before ended and each is an allowed edge. -/
inductive Linked (edge : Status → Status → Prop) : Status → List (Status × Status) → Status → Prop where
  | nil (status : Status) : Linked edge status [] status
  | snoc {first prior next : Status} {moves : List (Status × Status)}
      (earlier : Linked edge first moves prior) (allowed : edge prior next) :
      Linked edge first (moves ++ [(prior, next)]) next

variable {edge : Status → Status → Prop}

/-- Both ends of every recorded move are an edge. -/
theorem Linked.edge_of_mem {first last : Status} {moves : List (Status × Status)}
    (linked : Linked edge first moves last) : ∀ move ∈ moves, edge move.1 move.2 := by
  induction linked with
  | nil => simp
  | snoc earlier allowed ih =>
      intro move hMove
      rcases List.mem_append.mp hMove with hOld | hNew
      · exact ih move hOld
      · rw [List.mem_singleton] at hNew
        subst hNew
        exact allowed

/-- A property of the first status that every edge keeps holds of the last. -/
theorem Linked.invariant {property : Status → Prop} {first last : Status}
    {moves : List (Status × Status)} (linked : Linked edge first moves last)
    (hEdge : ∀ prior next, edge prior next → property prior → property next)
    (hFirst : property first) : property last := by
  induction linked with
  | nil => exact hFirst
  | snoc earlier allowed ih => exact hEdge _ _ allowed ih

end Trail
