import Mathlib.Algebra.Order.Group.Defs
import Mathlib.Algebra.Order.Sub.Basic
import Mathlib.Data.List.Basic

/-! Times in a sliding window that reaches back from a moment and leaves its far end out. -/

namespace Window

variable {Time : Type} [AddCommGroup Time] [LinearOrder Time] [IsOrderedAddMonoid Time]

/-- The times after a cutoff. -/
def recent (cutoff : Time) (times : List Time) : List Time := times.filter fun time => cutoff < time

/-- The times of the window that ends at a moment. -/
def within (length moment : Time) (times : List Time) : List Time :=
  times.filter fun time => moment - length < time ∧ time ≤ moment

omit [AddCommGroup Time] [IsOrderedAddMonoid Time] in
@[simp] theorem recent_nil (cutoff : Time) : recent cutoff [] = [] := rfl

omit [AddCommGroup Time] [IsOrderedAddMonoid Time] in
theorem recent_append (cutoff : Time) (first second : List Time) :
    recent cutoff (first ++ second) = recent cutoff first ++ recent cutoff second :=
  List.filter_append ..

omit [AddCommGroup Time] [IsOrderedAddMonoid Time] in
/-- What is left of a sorted queue after its old times have been taken off the front. -/
theorem dropWhile_eq_recent (cutoff : Time) {times : List Time} (hSorted : times.Pairwise (· ≤ ·)) :
    times.dropWhile (fun time => time ≤ cutoff) = recent cutoff times := by
  induction times with
  | nil => rfl
  | cons time rest ih =>
      rw [List.pairwise_cons] at hSorted
      by_cases hOld : time ≤ cutoff
      · rw [List.dropWhile_cons_of_pos (by simpa using hOld), ih hSorted.2, recent, recent,
          List.filter_cons_of_neg (by simpa using hOld)]
      · have hAll : ∀ other ∈ time :: rest, decide (cutoff < other) = true := by
          intro other hOther
          rw [decide_eq_true_eq]
          rcases List.mem_cons.mp hOther with rfl | hRest
          · exact lt_of_not_ge hOld
          · exact lt_of_lt_of_le (lt_of_not_ge hOld) (hSorted.1 other hRest)
        rw [List.dropWhile_cons_of_neg (by simpa using hOld), recent, List.filter_eq_self.mpr hAll]

omit [AddCommGroup Time] [IsOrderedAddMonoid Time] in
/-- What two lists share after a cutoff they share after every later one. -/
theorem recent_congr {cutoff later : Time} {first second : List Time} (hLater : cutoff ≤ later)
    (hSame : recent cutoff first = recent cutoff second) : recent later first = recent later second := by
  have hAgain : ∀ times : List Time, recent later (recent cutoff times) = recent later times := by
    intro times
    rw [recent, recent, List.filter_filter]
    congr 1
    funext time
    by_cases hTime : later < time
    · simp [hTime, lt_of_le_of_lt hLater hTime]
    · simp [hTime]
  rw [← hAgain first, hSame, hAgain second]

omit [IsOrderedAddMonoid Time] in
theorem within_eq_recent {length moment : Time} {times : List Time} (hPast : ∀ time ∈ times, time ≤ moment) :
    within length moment times = recent (moment - length) times := by
  refine List.filter_congr fun time hTime => ?_
  simp [hPast time hTime]

/-- A sorted queue holds the times of the window that ends at a moment. -/
structure Holds (length moment : Time) (queue times : List Time) : Prop where
  sorted : queue.Pairwise (· ≤ ·)
  recorded : ∀ time ∈ queue, time ≤ moment
  past : ∀ time ∈ times, time ≤ moment
  same : recent (moment - length) queue = recent (moment - length) times

section
variable {length moment next : Time} {queue times : List Time}

omit [IsOrderedAddMonoid Time] in
theorem holds_nil : Holds length moment [] [] := ⟨List.Pairwise.nil, nofun, nofun, rfl⟩

theorem Holds.later (holds : Holds length moment queue times) (hNext : moment ≤ next) :
    Holds length next queue times where
  sorted := holds.sorted
  recorded time hTime := (holds.recorded time hTime).trans hNext
  past time hTime := (holds.past time hTime).trans hNext
  same := recent_congr (sub_le_sub_right hNext length) holds.same

omit [IsOrderedAddMonoid Time] in
/-- The window of the times is what the queue keeps of it. -/
theorem Holds.within (holds : Holds length moment queue times) :
    within length moment times = recent (moment - length) queue := by
  rw [within_eq_recent holds.past, holds.same]

omit [IsOrderedAddMonoid Time] in
/-- Old times may be taken off the queue. -/
theorem Holds.dropped (holds : Holds length moment queue times) :
    Holds length moment (recent (moment - length) queue) times where
  sorted := holds.sorted.sublist List.filter_sublist
  recorded time hTime := holds.recorded time (List.mem_filter.mp hTime).1
  past := holds.past
  same := by
    rw [← holds.same, recent, recent, List.filter_filter]
    simp only [Bool.and_self]

omit [IsOrderedAddMonoid Time] in
/-- A queue without recent times may be lost. -/
theorem Holds.lost (holds : Holds length moment queue times) (hIdle : recent (moment - length) queue = []) :
    Holds length moment [] times where
  sorted := List.Pairwise.nil
  recorded := nofun
  past := holds.past
  same := by rw [recent_nil, ← holds.same, hIdle]

omit [IsOrderedAddMonoid Time] in
theorem Holds.append (holds : Holds length moment queue times) :
    Holds length moment (queue ++ [moment]) (times ++ [moment]) where
  sorted := by
    refine List.pairwise_append.mpr ⟨holds.sorted, List.pairwise_singleton _ _, ?_⟩
    intro time hTime last hLast
    rw [List.mem_singleton.mp hLast]
    exact holds.recorded time hTime
  recorded := by
    intro time hTime
    rcases List.mem_append.mp hTime with hOld | hNew
    · exact holds.recorded time hOld
    · exact (List.mem_singleton.mp hNew).le
  past := by
    intro time hTime
    rcases List.mem_append.mp hTime with hOld | hNew
    · exact holds.past time hOld
    · exact (List.mem_singleton.mp hNew).le
  same := by rw [recent_append, recent_append, holds.same]

end

/-- No window holds more than a number of the times. -/
def Limited (length : Time) (limit : Nat) (times : List Time) : Prop :=
  ∀ moment, (within length moment times).length ≤ limit

omit [IsOrderedAddMonoid Time] in
theorem limited_nil (length : Time) (limit : Nat) : Limited length limit [] := fun _ => Nat.zero_le _

/-- A time that comes last may be added while its own window is not full. -/
theorem Limited.append {length moment : Time} {limit : Nat} {times : List Time} (limited : Limited length limit times)
    (hFree : (recent (moment - length) times).length < limit) :
    Limited length limit (times ++ [moment]) := by
  intro other
  rw [within, List.filter_append, List.length_append]
  by_cases hBefore : other < moment
  · have hNone : [moment].filter (fun time => other - length < time ∧ time ≤ other) = [] := by
      simp [not_le.mpr hBefore]
    rw [hNone]
    exact limited other
  · have hAfter : moment ≤ other := not_lt.mp hBefore
    -- The window of a later moment holds no more of the earlier times than the one of this moment.
    have hEarlier : (within length other times).length ≤ (recent (moment - length) times).length := by
      refine List.Sublist.length_le (List.monotone_filter_right times ?_)
      intro time hTime
      simp only [Bool.decide_and, Bool.and_eq_true, decide_eq_true_eq] at hTime ⊢
      exact lt_of_le_of_lt (sub_le_sub_right hAfter length) hTime.1
    have hOne : ([moment].filter fun time => other - length < time ∧ time ≤ other).length ≤ 1 :=
      List.length_filter_le _ _
    rw [within] at hEarlier
    omega

end Window
