import Mathlib.Algebra.Order.Ring.Rat
import Mathlib.Data.List.Nodup
import VouchSpec.Library.Window

/-! The rate limiter of the commerce server: a queue of admitted times for each key,
and a sweep over idle keys once there are many of them. -/

namespace VouchSpec

open Window

/-- `SlidingWindowRateLimiter`; the queues by their keys, in order of insertion. -/
structure SlidingWindowRateLimiter (Key : Type) where
  window : ℚ
  events : List (Key × List ℚ) := []

/-- A call of `allow`, at a moment. -/
structure Asked (Key : Type) where
  key : Key
  now : ℚ
deriving DecidableEq

namespace SlidingWindowRateLimiter

variable {Key : Type} [DecidableEq Key]

/-- The queue of a key; a key that is not tracked has an empty one. -/
def queue (events : List (Key × List ℚ)) (key : Key) : List ℚ :=
  ((events.find? fun entry => entry.1 = key).map Prod.snd).getD []

/-- `events.setdefault(key, deque())`. -/
def setDefault (events : List (Key × List ℚ)) (key : Key) : List (Key × List ℚ) :=
  if key ∈ events.map Prod.fst then events else events ++ [(key, [])]

/-- The queue of a tracked key is changed in place. -/
def assign (events : List (Key × List ℚ)) (key : Key) (times : List ℚ) : List (Key × List ℚ) :=
  events.map fun entry => if entry.1 = key then (key, times) else entry

/-- A queue without times after the cutoff. -/
def isIdle (cutoff : ℚ) (times : List ℚ) : Bool :=
  match times.getLast? with
  | none => true
  | some last => last ≤ cutoff

/-- Above 10,000 tracked keys, the first 1,000 idle ones are dropped. -/
def pruned (cutoff : ℚ) (events : List (Key × List ℚ)) : List (Key × List ℚ) :=
  if 10000 < events.length then
    let stale := ((events.filter fun entry => isIdle cutoff entry.2).map Prod.fst).take 1000
    events.filter fun entry => entry.1 ∉ stale
  else events

/-- `allow`, with what it does to the queues after an admission. -/
def allowWith (sweep : ℚ → List (Key × List ℚ) → List (Key × List ℚ)) (limiter : SlidingWindowRateLimiter Key)
    (key : Key) (limit : Nat) (now : ℚ) : Bool × SlidingWindowRateLimiter Key :=
  let cutoff := now - limiter.window
  let tracked := setDefault limiter.events key
  let times := (queue tracked key).dropWhile fun time => time ≤ cutoff
  if limit ≤ times.length then (false, { limiter with events := assign tracked key times })
  else (true, { limiter with events := sweep cutoff (assign tracked key (times ++ [now])) })

/-- `allow`. -/
def allow (limiter : SlidingWindowRateLimiter Key) (key : Key) (limit : Nat) (now : ℚ) :
    Bool × SlidingWindowRateLimiter Key :=
  limiter.allowWith pruned key limit now

/-- The answers to calls one after the other. -/
def answersWith (sweep : ℚ → List (Key × List ℚ) → List (Key × List ℚ)) (limit : Key → Nat) :
    SlidingWindowRateLimiter Key → List (Asked Key) → List Bool
  | _, [] => []
  | limiter, asked :: rest =>
      let (answer, after) := limiter.allowWith sweep asked.key (limit asked.key) asked.now
      answer :: answersWith sweep limit after rest

/-- The answers of the limiter. -/
def answers (limit : Key → Nat) (limiter : SlidingWindowRateLimiter Key) (calls : List (Asked Key)) : List Bool :=
  answersWith pruned limit limiter calls

/-- The times of the admitted calls of a key. -/
def admitted (key : Key) : List (Asked Key) → List Bool → List ℚ
  | asked :: calls, answer :: answers =>
      if asked.key = key ∧ answer = true then asked.now :: admitted key calls answers else admitted key calls answers
  | _, _ => []

/-- The window that ends at a call is full. -/
def IsFull (window : ℚ) (limit : Key → Nat) (history : Key → List ℚ) (asked : Asked Key) : Prop :=
  limit asked.key ≤ (within window asked.now (history asked.key)).length

instance (window : ℚ) (limit : Key → Nat) (history : Key → List ℚ) (asked : Asked Key) :
    Decidable (IsFull window limit history asked) :=
  inferInstanceAs (Decidable (_ ≤ _))

/-- The admitted times of every key after a call. -/
def recorded (window : ℚ) (limit : Key → Nat) (history : Key → List ℚ) (asked : Asked Key) : Key → List ℚ :=
  if IsFull window limit history asked then history
  else Function.update history asked.key (history asked.key ++ [asked.now])

/-- The answers by the full history. -/
def exactAnswers (window : ℚ) (limit : Key → Nat) : (Key → List ℚ) → List (Asked Key) → List Bool
  | _, [] => []
  | history, asked :: rest =>
      decide (¬IsFull window limit history asked) :: exactAnswers window limit (recorded window limit history asked) rest

section
variable {events : List (Key × List ℚ)} {key other : Key} {times : List ℚ} {cutoff : ℚ}

theorem keys_assign : (assign events key times).map Prod.fst = events.map Prod.fst := by
  rw [assign, List.map_map]
  refine List.map_congr_left fun entry _ => ?_
  by_cases hKey : entry.1 = key
  · simp [hKey]
  · simp [hKey]

theorem setDefault_nodup (hNodup : (events.map Prod.fst).Nodup) : ((setDefault events key).map Prod.fst).Nodup := by
  unfold setDefault
  split
  · exact hNodup
  · next hNew =>
      rw [List.map_append, List.map_singleton, List.nodup_append]
      refine ⟨hNodup, List.nodup_singleton key, ?_⟩
      rintro found hFound _ hKey rfl
      rw [List.mem_singleton.mp hKey] at hFound
      exact hNew hFound

theorem mem_setDefault : key ∈ (setDefault events key).map Prod.fst := by
  unfold setDefault
  split
  · next hTracked => exact hTracked
  · simp

/-- The queue of an entry is the queue of its key. -/
theorem queue_of_mem (hNodup : (events.map Prod.fst).Nodup) (hEntry : (key, times) ∈ events) :
    queue events key = times := by
  induction events with
  | nil => cases hEntry
  | cons entry rest ih =>
      rw [List.map_cons, List.nodup_cons] at hNodup
      rcases List.mem_cons.mp hEntry with rfl | hRest
      · simp [queue]
      · have hOther : entry.1 ≠ key := by
          rintro rfl
          exact hNodup.1 (List.mem_map.mpr ⟨_, hRest, rfl⟩)
        rw [← ih hNodup.2 hRest, queue, queue, List.find?_cons_of_neg (by simpa using hOther)]

theorem queue_of_not_mem (hKey : key ∉ events.map Prod.fst) : queue events key = [] := by
  have hNone : events.find? (fun entry => entry.1 = key) = none := by
    rw [List.find?_eq_none]
    intro entry hEntry hSame
    exact hKey (List.mem_map.mpr ⟨entry, hEntry, of_decide_eq_true hSame⟩)
  rw [queue, hNone]
  rfl

theorem queue_setDefault : queue (setDefault events key) other = queue events other := by
  unfold setDefault
  split
  · rfl
  · next hNew =>
      rw [queue, queue, List.find?_append]
      cases hFound : events.find? fun entry => entry.1 = other with
      | some entry => rfl
      | none =>
          by_cases hKey : key = other
          · simp [hKey]
          · simp [hKey]

theorem queue_assign (hNodup : (events.map Prod.fst).Nodup) (hKey : key ∈ events.map Prod.fst) :
    queue (assign events key times) other = if other = key then times else queue events other := by
  have hKept : ((assign events key times).map Prod.fst).Nodup := by rwa [keys_assign]
  by_cases hOwn : other = key
  · rw [if_pos hOwn, hOwn]
    obtain ⟨entry, hEntry, rfl⟩ := List.mem_map.mp hKey
    exact queue_of_mem hKept (List.mem_map.mpr ⟨entry, hEntry, if_pos rfl⟩)
  · rw [if_neg hOwn]
    by_cases hTracked : other ∈ events.map Prod.fst
    · obtain ⟨entry, hEntry, rfl⟩ := List.mem_map.mp hTracked
      rw [queue_of_mem hNodup hEntry]
      exact queue_of_mem hKept (List.mem_map.mpr ⟨entry, hEntry, if_neg hOwn⟩)
    · rw [queue_of_not_mem hTracked, queue_of_not_mem (by rwa [keys_assign])]

theorem isIdle_iff (hSorted : times.Pairwise (· ≤ ·)) : isIdle cutoff times = true ↔ recent cutoff times = [] := by
  rcases List.eq_nil_or_concat times with rfl | ⟨front, last, rfl⟩
  · simp [isIdle]
  · rw [List.concat_eq_append] at hSorted ⊢
    have hBefore : ∀ time ∈ front, time ≤ last := fun time hTime =>
      (List.pairwise_append.mp hSorted).2.2 time hTime last (List.mem_singleton_self last)
    simp only [isIdle, List.getLast?_concat, decide_eq_true_eq, recent, List.filter_eq_nil_iff, List.mem_append,
      List.mem_singleton, not_lt]
    constructor
    · rintro hLast time (hTime | rfl)
      · exact (hBefore time hTime).trans hLast
      · exact hLast
    · intro hAll
      exact hAll last (Or.inr rfl)

end

/-- A sweep drops only keys whose queues are idle. -/
structure Sweeps (sweep : ℚ → List (Key × List ℚ) → List (Key × List ℚ)) : Prop where
  sublist : ∀ cutoff events, (sweep cutoff events).Sublist events
  idle : ∀ cutoff events, (events.map Prod.fst).Nodup → ∀ entry ∈ events, isIdle cutoff entry.2 = false →
    entry ∈ sweep cutoff events

theorem sweeps_pruned : Sweeps (@pruned Key _) where
  sublist cutoff events := by
    unfold pruned
    split
    · exact List.filter_sublist
    · exact List.Sublist.refl events
  idle := by
    intro cutoff events hNodup entry hEntry hActive
    unfold pruned
    split
    · refine List.mem_filter.mpr ⟨hEntry, decide_eq_true ?_⟩
      intro hStale
      obtain ⟨other, hOther, hSame⟩ := List.mem_map.mp (List.mem_of_mem_take hStale)
      obtain ⟨hOther, hIdle⟩ := List.mem_filter.mp hOther
      -- The keys are distinct, so the idle entry under this key is the entry itself.
      have hQueue : entry.2 = other.2 := by
        rw [← queue_of_mem hNodup hEntry, ← queue_of_mem hNodup hOther, hSame]
      rw [hQueue, hIdle] at hActive
      cases hActive
    · exact hEntry

omit [DecidableEq Key] in
theorem sweeps_none : Sweeps fun _ (events : List (Key × List ℚ)) => events where
  sublist _ events := List.Sublist.refl events
  idle _ _ _ _ hEntry _ := hEntry

/-- Every queue holds the admitted times of the window that ends at a moment. -/
structure Tracks (limiter : SlidingWindowRateLimiter Key) (history : Key → List ℚ) (moment : ℚ) : Prop where
  distinct : (limiter.events.map Prod.fst).Nodup
  holds : ∀ key, Holds limiter.window moment (queue limiter.events key) (history key)

section
variable {sweep : ℚ → List (Key × List ℚ) → List (Key × List ℚ)} {limiter : SlidingWindowRateLimiter Key}
  {history : Key → List ℚ} {moment now cutoff : ℚ} {events : List (Key × List ℚ)} {key : Key}

/-- A sweep leaves the queue of a key as it is, or takes an idle one away. -/
theorem Sweeps.queue (sweeps : Sweeps sweep) (hNodup : (events.map Prod.fst).Nodup) :
    queue (sweep cutoff events) key = queue events key ∨
      queue (sweep cutoff events) key = [] ∧ isIdle cutoff (queue events key) = true := by
  have hSublist := sweeps.sublist cutoff events
  have hSwept : ((sweep cutoff events).map Prod.fst).Nodup := (hSublist.map Prod.fst).nodup hNodup
  by_cases hKept : key ∈ (sweep cutoff events).map Prod.fst
  · obtain ⟨entry, hEntry, rfl⟩ := List.mem_map.mp hKept
    left
    rw [queue_of_mem hSwept hEntry, queue_of_mem hNodup (hSublist.subset hEntry)]
  · by_cases hTracked : key ∈ events.map Prod.fst
    · obtain ⟨entry, hEntry, rfl⟩ := List.mem_map.mp hTracked
      right
      refine ⟨queue_of_not_mem hKept, ?_⟩
      rw [queue_of_mem hNodup hEntry]
      by_contra hActive
      exact hKept (List.mem_map_of_mem (sweeps.idle cutoff events hNodup entry hEntry (by simpa using hActive)))
    · left
      rw [queue_of_not_mem hKept, queue_of_not_mem hTracked]

/-- What a sweep leaves of a queue holds what the queue held. -/
theorem Sweeps.holds (sweeps : Sweeps sweep) (hNodup : (events.map Prod.fst).Nodup) {window : ℚ} {times : List ℚ}
    (holds : Holds window now (SlidingWindowRateLimiter.queue events key) times) :
    Holds window now (SlidingWindowRateLimiter.queue (sweep (now - window) events) key) times := by
  rcases sweeps.queue hNodup with hSame | ⟨hGone, hIdle⟩
  · rwa [hSame]
  · rw [hGone]
    exact holds.lost ((isIdle_iff holds.sorted).mp hIdle)

/-- One call: it is denied exactly when the window of the history is full, and the queues
go on holding the history. -/
theorem Tracks.allowWith (sweeps : Sweeps sweep) (limit : Key → Nat) {asked : Asked Key}
    (tracks : Tracks limiter history moment) (hLater : moment ≤ asked.now) :
    ∃ after, limiter.allowWith sweep asked.key (limit asked.key) asked.now =
        (decide (¬IsFull limiter.window limit history asked), after) ∧
      after.window = limiter.window ∧ Tracks after (recorded limiter.window limit history asked) asked.now := by
  have holds := fun other => (tracks.holds other).later hLater
  have hNodup : ((setDefault limiter.events asked.key).map Prod.fst).Nodup := setDefault_nodup tracks.distinct
  have hTimes : (queue (setDefault limiter.events asked.key) asked.key).dropWhile
      (fun time => time ≤ asked.now - limiter.window) = within limiter.window asked.now (history asked.key) := by
    rw [queue_setDefault, dropWhile_eq_recent _ (holds asked.key).sorted, (holds asked.key).within]
  have hAssigned : ∀ times other, queue (assign (setDefault limiter.events asked.key) asked.key times) other =
      if other = asked.key then times else queue limiter.events other := by
    intro times other
    rw [queue_assign hNodup mem_setDefault, queue_setDefault]
  have hDistinct : ∀ times,
      ((assign (setDefault limiter.events asked.key) asked.key times).map Prod.fst).Nodup := by
    intro times
    rwa [keys_assign]
  have hDropped : Holds limiter.window asked.now (within limiter.window asked.now (history asked.key))
      (history asked.key) := by
    rw [(holds asked.key).within]
    exact (holds asked.key).dropped
  simp only [SlidingWindowRateLimiter.allowWith, hTimes, recorded]
  by_cases hFull : IsFull limiter.window limit history asked
  · have hLength : limit asked.key ≤ (within limiter.window asked.now (history asked.key)).length := hFull
    rw [if_pos hLength, if_pos hFull, decide_eq_false (not_not.mpr hFull)]
    refine ⟨_, rfl, rfl, hDistinct (within limiter.window asked.now (history asked.key)), fun other => ?_⟩
    rw [hAssigned]
    by_cases hOwn : other = asked.key
    · rwa [if_pos hOwn, hOwn]
    · rw [if_neg hOwn]
      exact holds other
  · have hLength : ¬limit asked.key ≤ (within limiter.window asked.now (history asked.key)).length := hFull
    rw [if_neg hLength, if_neg hFull, decide_eq_true hFull]
    have hSublist := sweeps.sublist (asked.now - limiter.window) (assign (setDefault limiter.events asked.key) asked.key
      (within limiter.window asked.now (history asked.key) ++ [asked.now]))
    refine ⟨_, rfl, rfl, (hSublist.map Prod.fst).nodup (hDistinct _), fun other => ?_⟩
    refine sweeps.holds (hDistinct _) ?_
    rw [hAssigned]
    by_cases hOwn : other = asked.key
    · rw [if_pos hOwn, hOwn, Function.update_self]
      exact hDropped.append
    · rw [if_neg hOwn, Function.update_of_ne hOwn]
      exact holds other

/-- The answers are those by the full history, whatever idle queues are dropped. -/
theorem answersWith_eq_exact (sweeps : Sweeps sweep) (limit : Key → Nat) {calls : List (Asked Key)}
    (tracks : Tracks limiter history moment) (hLater : ∀ asked ∈ calls, moment ≤ asked.now)
    (hOrdered : calls.Pairwise fun first second => first.now ≤ second.now) :
    answersWith sweep limit limiter calls = exactAnswers limiter.window limit history calls := by
  induction calls generalizing limiter history moment with
  | nil => rfl
  | cons asked rest ih =>
      rw [List.pairwise_cons] at hOrdered
      obtain ⟨after, hAllow, hWindow, hTracks⟩ := tracks.allowWith sweeps limit (hLater asked List.mem_cons_self)
      rw [answersWith, hAllow, exactAnswers]
      simp only [ih hTracks hOrdered.1 hOrdered.2, hWindow]

/-- The admitted times after a first call and the rest of the calls. -/
theorem admitted_recorded (window : ℚ) (limit : Key → Nat) (asked : Asked Key) (calls : List (Asked Key))
    (answers : List Bool) :
    history key ++ admitted key (asked :: calls) (decide (¬IsFull window limit history asked) :: answers) =
      recorded window limit history asked key ++ admitted key calls answers := by
  by_cases hFull : IsFull window limit history asked
  · simp [admitted, recorded, hFull]
  · by_cases hOwn : asked.key = key
    · subst hOwn
      simp [admitted, recorded, hFull]
    · simp [admitted, recorded, hFull, hOwn, Function.update_of_ne (Ne.symm hOwn)]

/-- Admissions by the full history keep to the limit in every window. -/
theorem limited_exact (window : ℚ) (limit : Key → Nat) {calls : List (Asked Key)}
    (hHistory : ∀ key, Limited window (limit key) (history key) ∧ ∀ time ∈ history key, time ≤ moment)
    (hLater : ∀ asked ∈ calls, moment ≤ asked.now)
    (hOrdered : calls.Pairwise fun first second => first.now ≤ second.now) (key : Key) :
    Limited window (limit key) (history key ++ admitted key calls (exactAnswers window limit history calls)) := by
  induction calls generalizing history moment with
  | nil =>
      rw [admitted, List.append_nil]
      exact (hHistory key).1
      all_goals simp
  | cons asked rest ih =>
      rw [List.pairwise_cons] at hOrdered
      have hNow := hLater asked List.mem_cons_self
      have hStep : ∀ other, Limited window (limit other) (recorded window limit history asked other) ∧
          ∀ time ∈ recorded window limit history asked other, time ≤ asked.now := by
        intro other
        obtain ⟨limited, hPast⟩ := hHistory other
        have hEarlier : ∀ time ∈ history other, time ≤ asked.now := fun time hTime => (hPast time hTime).trans hNow
        by_cases hFull : IsFull window limit history asked
        · rw [recorded, if_pos hFull]
          exact ⟨limited, hEarlier⟩
        · rw [recorded, if_neg hFull]
          by_cases hOwn : other = asked.key
          · subst hOwn
            rw [Function.update_self]
            rw [IsFull, within_eq_recent hEarlier] at hFull
            refine ⟨limited.append (not_le.mp hFull), ?_⟩
            intro time hTime
            rcases List.mem_append.mp hTime with hOld | hNew
            · exact hEarlier time hOld
            · exact (List.mem_singleton.mp hNew).le
          · rw [Function.update_of_ne hOwn]
            exact ⟨limited, hEarlier⟩
      rw [exactAnswers, admitted_recorded]
      exact ih hStep hOrdered.1 hOrdered.2

/-- A call is denied exactly when its window is full of calls that were admitted before it. -/
theorem denied_exact (window : ℚ) (limit : Key → Nat) (before : List (Asked Key)) (asked : Asked Key)
    (after : List (Asked Key)) :
    (exactAnswers window limit history (before ++ asked :: after))[before.length]? = some false ↔
      limit asked.key ≤ (within window asked.now (history asked.key ++ admitted asked.key before
        ((exactAnswers window limit history (before ++ asked :: after)).take before.length))).length := by
  induction before generalizing history with
  | nil => simp [exactAnswers, admitted, IsFull]
  | cons first rest ih =>
      rw [List.cons_append, exactAnswers, List.length_cons, List.getElem?_cons_succ, List.take_succ_cons,
        admitted_recorded]
      exact ih

end

/-- What the answers to calls on a new limiter amount to. -/
structure Exact (window : ℚ) (limit : Key → Nat) (calls : List (Asked Key)) (answers : List Bool) : Prop where
  answered : answers.length = calls.length
  limited : ∀ key, Limited window (limit key) (admitted key calls answers)
  /-- A call is denied when the calls admitted before it fill its window, and only then. -/
  denied : ∀ before asked after, calls = before ++ asked :: after →
    (answers[before.length]? = some false ↔
      limit asked.key ≤ (within window asked.now (admitted asked.key before (answers.take before.length))).length)
  /-- The answers are those of a limiter that never drops a key. -/
  kept : answers = answersWith (fun _ events => events) limit { window } calls

theorem length_exactAnswers (window : ℚ) (limit : Key → Nat) (history : Key → List ℚ) (calls : List (Asked Key)) :
    (exactAnswers window limit history calls).length = calls.length := by
  induction calls generalizing history with
  | nil => rfl
  | cons asked rest ih => rw [exactAnswers, List.length_cons, List.length_cons, ih]

omit [DecidableEq Key] in
theorem limited_fresh (window : ℚ) (limit : Key → Nat) (moment : ℚ) (key : Key) :
    Limited window (limit key) (([] : List ℚ)) ∧ ∀ time ∈ ([] : List ℚ), time ≤ moment :=
  ⟨limited_nil window (limit key), nofun⟩

/-- For calls at times that never go back, the limiter is exact, and the dropping of idle
keys changes no answer. -/
theorem answers_exact (window : ℚ) (limit : Key → Nat) (calls : List (Asked Key))
    (hOrdered : calls.Pairwise fun first second => first.now ≤ second.now) :
    Exact window limit calls (answers limit { window } calls) := by
  obtain ⟨moment, hLater⟩ : ∃ moment, ∀ asked ∈ calls, moment ≤ asked.now := by
    cases calls with
    | nil => exact ⟨0, nofun⟩
    | cons first rest =>
        refine ⟨first.now, fun asked hAsked => ?_⟩
        rcases List.mem_cons.mp hAsked with rfl | hRest
        · exact le_refl _
        · exact List.rel_of_pairwise_cons hOrdered hRest
  have tracks : Tracks ({ window } : SlidingWindowRateLimiter Key) (fun _ => []) moment :=
    ⟨List.nodup_nil, fun _ => holds_nil⟩
  have hExact : answers limit { window } calls = exactAnswers window limit (fun _ => []) calls :=
    answersWith_eq_exact sweeps_pruned limit tracks hLater hOrdered
  have hKept : answersWith (fun _ events => events) limit { window } calls =
      exactAnswers window limit (fun _ => []) calls :=
    answersWith_eq_exact sweeps_none limit tracks hLater hOrdered
  rw [hExact]
  refine ⟨length_exactAnswers window limit _ calls, fun key => ?_, ?_, hKept.symm⟩
  · have hLimited := limited_exact window limit (limited_fresh window limit moment) hLater hOrdered key
    rwa [List.nil_append] at hLimited
  · intro before asked after hCalls
    rw [hCalls]
    exact denied_exact window limit before asked after

/-- Three calls of one client within a window of a minute, and one after it. -/
theorem answers_exact_minute :
    answers (fun _ => 2) { window := 60 } [⟨0, 0⟩, ⟨0, 10⟩, ⟨0, 59⟩, ⟨0, (60 : ℚ)⟩] = [true, true, false, true] ∧
      Exact 60 (fun _ : Nat => 2) [⟨0, 0⟩, ⟨0, 10⟩, ⟨0, 59⟩, ⟨0, 60⟩]
        (answers (fun _ => 2) { window := 60 } [⟨0, 0⟩, ⟨0, 10⟩, ⟨0, 59⟩, ⟨0, 60⟩]) :=
  ⟨by decide +kernel, answers_exact 60 (fun _ => 2) _ (by decide +kernel)⟩

end SlidingWindowRateLimiter

end VouchSpec
