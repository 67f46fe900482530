import Mathlib.Data.List.Basic

/-! Slices of lists between positions that may count from the end, and what a cursor of that
kind points to. -/

namespace Slice

variable {Item : Type}

/-- Where a position is in a list of a length, between its ends. -/
def position (length : Nat) (index : Int) : Nat :=
  if index < 0 then (length + index).toNat else min index.toNat length

/-- `items[start:stop]`. -/
def slice (items : List Item) (start stop : Int) : List Item :=
  (items.take (position items.length stop)).drop (position items.length start)

/-- `items.find(item, start)`. -/
def find [DecidableEq Item] (items : List Item) (item : Item) (start : Int) : Option Nat :=
  ((items.drop (position items.length start)).findIdx? fun other => other = item).map
    fun index => position items.length start + index

/-- A cursor points to a place in a list, from its beginning or from its end. -/
def Points (length : Nat) (cursor : Int) (place : Nat) : Prop :=
  cursor = place ∧ place ≤ length ∨ cursor = place - length ∧ place < length

theorem position_nat {length place : Nat} (h : place ≤ length) : position length place = place := by
  rw [position, if_neg (by omega), Int.toNat_natCast, Nat.min_eq_left h]

theorem Points.position {length place : Nat} {cursor : Int} (points : Points length cursor place) :
    position length cursor = place := by
  rcases points with ⟨rfl, hPlace⟩ | ⟨rfl, hPlace⟩
  · exact position_nat hPlace
  · rw [Slice.position, if_pos (by omega)]
    omega

theorem Points.zero (length : Nat) : Points length 0 0 := Or.inl ⟨rfl, Nat.zero_le _⟩

/-- Only from the beginning does a cursor point to the end. -/
theorem Points.eq_length_iff {length place : Nat} {cursor : Int} (points : Points length cursor place) :
    cursor = length ↔ place = length := by
  rcases points with ⟨rfl, _⟩ | ⟨rfl, hPlace⟩
  · exact Int.natCast_inj
  · omega

theorem slice_points {items : List Item} {start stop : Int} {first last : Nat}
    (hStart : Points items.length start first) (hStop : Points items.length stop last) :
    slice items start stop = (items.take last).drop first := by
  rw [slice, hStart.position, hStop.position]

/-- The cursor behind a place. -/
theorem Points.next {length place : Nat} {cursor : Int} (points : Points length cursor place) (hPlace : place < length)
    (hLast : cursor ≠ -1) : Points length (cursor + 1) (place + 1) := by
  rcases points with ⟨rfl, _⟩ | ⟨rfl, _⟩
  · exact Or.inl ⟨rfl, hPlace⟩
  · exact Or.inr ⟨by omega, by omega⟩

/-- A list is cut at the first of an item in one way only. -/
theorem cut_unique {item : Item} {front other rest more : List Item} (hFront : item ∉ front) (hOther : item ∉ other)
    (h : front ++ item :: rest = other ++ item :: more) : front = other ∧ rest = more := by
  induction front generalizing other with
  | nil =>
      cases other with
      | nil => exact ⟨rfl, (List.cons.inj h).2⟩
      | cons first other =>
          obtain ⟨rfl, _⟩ := List.cons.inj h
          exact absurd List.mem_cons_self hOther
  | cons first front ih =>
      cases other with
      | nil =>
          obtain ⟨rfl, _⟩ := List.cons.inj h
          exact absurd List.mem_cons_self hFront
      | cons second other =>
          obtain ⟨rfl, hRest⟩ := List.cons.inj h
          obtain ⟨rfl, rfl⟩ := ih (List.not_mem_of_not_mem_cons hFront) (List.not_mem_of_not_mem_cons hOther) hRest
          exact ⟨rfl, rfl⟩

section
variable [DecidableEq Item]

/-- The next of an item, with what is before and after it. -/
theorem find_iff {items : List Item} {item : Item} {start : Int} {index : Nat} :
    find items item start = some index ↔
      ∃ front rest, items.drop (position items.length start) = front ++ item :: rest ∧ item ∉ front ∧
        index = position items.length start + front.length := by
  have hSplit (rest : List Item) (count : Nat) : (rest.findIdx? fun other => other = item) = some count ↔
      ∃ front more, rest = front ++ item :: more ∧ item ∉ front ∧ count = front.length := by
    induction rest generalizing count with
    | nil => simp
    | cons first rest ih =>
        rw [List.findIdx?_cons]
        by_cases hFirst : first = item
        · subst hFirst
          simp only [decide_true, if_true, Option.some.injEq]
          constructor
          · rintro rfl
            exact ⟨[], rest, rfl, List.not_mem_nil, rfl⟩
          · rintro ⟨front, more, hRest, hFront, rfl⟩
            cases front with
            | nil => rfl
            | cons other front =>
                obtain ⟨rfl, _⟩ := List.cons.inj hRest
                exact absurd List.mem_cons_self hFront
        · simp only [hFirst, decide_false, Bool.false_eq_true, if_false, Option.map_eq_some_iff]
          constructor
          · rintro ⟨before, hBefore, rfl⟩
            obtain ⟨front, more, rfl, hFront, rfl⟩ := (ih before).mp hBefore
            exact ⟨first :: front, more, rfl, List.not_mem_cons_of_ne_of_not_mem (Ne.symm hFirst) hFront, rfl⟩
          · rintro ⟨front, more, hRest, hFront, rfl⟩
            cases front with
            | nil =>
                obtain ⟨rfl, _⟩ := List.cons.inj hRest
                exact absurd rfl hFirst
            | cons other front =>
                obtain ⟨rfl, rfl⟩ := List.cons.inj hRest
                exact ⟨front.length, (ih _).mpr ⟨front, more, rfl, List.not_mem_of_not_mem_cons hFront, rfl⟩, rfl⟩
  rw [find, Option.map_eq_some_iff]
  constructor
  · rintro ⟨count, hCount, rfl⟩
    obtain ⟨front, more, hRest, hFront, rfl⟩ := (hSplit _ _).mp hCount
    exact ⟨front, more, hRest, hFront, rfl⟩
  · rintro ⟨front, more, hRest, hFront, rfl⟩
    exact ⟨front.length, (hSplit _ _).mpr ⟨front, more, hRest, hFront, rfl⟩, rfl⟩

end

/-- A slice of one item is the item at the place to which its beginning points. -/
theorem slice_one_iff {items : List Item} {item : Item} {start : Int} :
    start < items.length ∧ slice items start (start + 1) = [item] ↔
      ∃ place, Points items.length start place ∧ start ≠ -1 ∧ items[place]? = some item := by
  have hOne (place : Nat) : (items.take (place + 1)).drop place = [item] ↔ items[place]? = some item := by
    rw [List.drop_take, Nat.add_sub_cancel_left, List.take_one, List.head?_drop]
    cases items[place]? <;> simp
  have hSlice {place : Nat} (hPlace : place < items.length) (points : Points items.length start place)
      (hLast : start ≠ -1) : slice items start (start + 1) = (items.take (place + 1)).drop place :=
    slice_points points (points.next hPlace hLast)
  constructor
  · rintro ⟨hStart, hItem⟩
    -- Before the first place, and from the last one, the slice is empty.
    have hPosition : 0 < position items.length (start + 1) := by
      refine Nat.pos_of_ne_zero ?_
      intro hZero
      rw [slice, hZero, List.take_zero, List.drop_nil] at hItem
      cases hItem
    have hPlace : Points items.length start (position items.length start) ∧ position items.length start < items.length ∧
        start ≠ -1 := by
      simp only [position] at hPosition ⊢
      unfold Points
      split at hPosition <;> split <;> omega
    rw [hSlice hPlace.2.1 hPlace.1 hPlace.2.2] at hItem
    exact ⟨_, hPlace.1, hPlace.2.2, (hOne _).mp hItem⟩
  · rintro ⟨place, points, hLast, hItem⟩
    have hPlace : place < items.length := List.getElem?_eq_some_iff.mp hItem |>.1
    refine ⟨?_, ?_⟩
    · rcases points with ⟨rfl, _⟩ | ⟨rfl, _⟩ <;> omega
    · rw [hSlice hPlace points hLast]
      exact (hOne place).mpr hItem

end Slice
