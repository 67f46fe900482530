import Mathlib.Algebra.BigOperators.Group.List.Basic
import Mathlib.Data.List.Pairwise

/-! Tables of rows under uniqueness constraints. The constraint is part of the
type, so that no sequence of insertions and updates can build two rows that
clash; a statement that would is refused, as a database engine refuses it. -/

/-- Rows in insertion order, no two of which clash on their key columns. -/
structure Table {Row Keys : Type} (keys : Row → Keys) (clash : Keys → Keys → Prop) where
  rows : List Row
  distinct : rows.Pairwise fun first second => ¬clash (keys first) (keys second)

namespace Table

variable {Row Keys : Type} {keys : Row → Keys} {clash : Keys → Keys → Prop}

@[ext] theorem ext {left right : Table keys clash} (h : left.rows = right.rows) : left = right := by
  cases left
  cases right
  cases h
  rfl

instance [DecidableEq Row] : DecidableEq (Table keys clash) := fun left right =>
  decidable_of_iff (left.rows = right.rows) ⟨ext, fun h => h ▸ rfl⟩

/-- A table without rows. -/
def empty : Table keys clash := ⟨[], List.Pairwise.nil⟩

@[simp] theorem empty_rows : (empty : Table keys clash).rows = [] := rfl

/-- The first row that meets a condition. -/
def find? (table : Table keys clash) (condition : Row → Bool) : Option Row :=
  table.rows.find? condition

/-- Insert one row, or refuse when it clashes with a stored one. -/
def insert? [DecidableRel clash] (table : Table keys clash) (row : Row) : Option (Table keys clash) :=
  if h : (table.rows ++ [row]).Pairwise fun first second => ¬clash (keys first) (keys second) then
    some ⟨table.rows ++ [row], h⟩
  else none

/-- The rows after changing those selected. -/
def changed (rows : List Row) (selected : Row → Bool) (change : Row → Row) : List Row :=
  rows.map fun row => if selected row then change row else row

/-- Change the selected rows, or refuse when the result has a clash. -/
def update? [DecidableRel clash] (table : Table keys clash) (selected : Row → Bool)
    (change : Row → Row) : Option (Table keys clash) :=
  if h : (changed table.rows selected change).Pairwise
      fun first second => ¬clash (keys first) (keys second) then
    some ⟨changed table.rows selected change, h⟩
  else none

/-- Change columns outside every constraint; this is never refused. -/
def update (table : Table keys clash) (selected : Row → Bool) (change : Row → Row)
    (hKeys : ∀ row, keys (change row) = keys row) : Table keys clash where
  rows := changed table.rows selected change
  distinct := by
    unfold changed
    rw [List.pairwise_map]
    refine table.distinct.imp ?_
    intro first second hDistinct
    have hSame : ∀ row, keys (if selected row then change row else row) = keys row := by
      intro row
      split
      · exact hKeys row
      · rfl
    rwa [hSame, hSame]

@[simp] theorem update_rows (table : Table keys clash) (selected : Row → Bool) (change : Row → Row)
    (hKeys : ∀ row, keys (change row) = keys row) :
    (table.update selected change hKeys).rows = changed table.rows selected change := rfl

theorem insert?_eq_some [DecidableRel clash] {table after : Table keys clash} {row : Row} :
    table.insert? row = some after ↔
      (∀ stored ∈ table.rows, ¬clash (keys stored) (keys row)) ∧
        after.rows = table.rows ++ [row] := by
  unfold insert?
  split
  · next h =>
      constructor
      · rintro ⟨⟩
        refine ⟨?_, rfl⟩
        intro stored hStored
        exact (List.pairwise_append.mp h).2.2 stored hStored row (by simp)
      · rintro ⟨_, hRows⟩
        exact congrArg some (ext hRows.symm)
  · next h =>
      simp only [reduceCtorEq, false_iff, not_and]
      intro hFresh
      refine absurd ?_ h
      refine List.pairwise_append.mpr ⟨table.distinct, List.pairwise_singleton _ _, ?_⟩
      intro stored hStored added hAdded
      rw [List.mem_singleton.mp hAdded]
      exact hFresh stored hStored

theorem mem_of_insert? [DecidableRel clash] {table after : Table keys clash} {row : Row}
    (hInsert : table.insert? row = some after) : row ∈ after.rows := by
  rw [(insert?_eq_some.mp hInsert).2]
  exact List.mem_append_right _ (List.mem_singleton_self row)

theorem update?_eq_some [DecidableRel clash] {table after : Table keys clash}
    {selected : Row → Bool} {change : Row → Row} :
    table.update? selected change = some after ↔
      after.rows = changed table.rows selected change := by
  unfold update?
  split
  · next h =>
      constructor
      · rintro ⟨⟩
        rfl
      · intro hRows
        exact congrArg some (ext hRows.symm)
  · next h =>
      simp only [reduceCtorEq, false_iff]
      intro hRows
      exact h (hRows ▸ after.distinct)

/-- Two stored rows that clash are the same row. -/
theorem eq_of_clash {table : Table keys clash} {first second : Row}
    (hFirst : first ∈ table.rows) (hSecond : second ∈ table.rows)
    (hForward : clash (keys first) (keys second)) (hBackward : clash (keys second) (keys first)) :
    first = second := by
  by_contra hDifferent
  have hPairs : table.rows.Pairwise fun left right =>
      ¬(clash (keys left) (keys right) ∧ clash (keys right) (keys left)) :=
    table.distinct.imp fun hDistinct hBoth => hDistinct hBoth.1
  have hSymmetric : Std.Symm fun left right : Row =>
      ¬(clash (keys left) (keys right) ∧ clash (keys right) (keys left)) :=
    ⟨fun _ _ hNot hBoth => hNot hBoth.symm⟩
  exact hPairs.forall hFirst hSecond hDifferent ⟨hForward, hBackward⟩

/-- A condition that two distinct rows cannot both meet selects at most one
row, which `find?` returns. -/
theorem find?_eq_some {table : Table keys clash} {condition : Row → Bool} {row : Row}
    (hKey : ∀ first second, condition first → condition second →
      clash (keys first) (keys second)) :
    table.find? condition = some row ↔ row ∈ table.rows ∧ condition row := by
  constructor
  · intro h
    exact ⟨List.mem_of_find?_eq_some h, List.find?_some h⟩
  · rintro ⟨hRow, hCondition⟩
    cases hFound : table.find? condition with
    | none => exact absurd hCondition (List.find?_eq_none.mp hFound row hRow)
    | some found =>
        have hMem := List.mem_of_find?_eq_some hFound
        have hMeets : condition found := List.find?_some hFound
        exact congrArg some (eq_of_clash hMem hRow (hKey _ _ hMeets hCondition)
          (hKey _ _ hCondition hMeets))

theorem find?_append_of_none {table after : Table keys clash} {added : Row}
    {condition : Row → Bool} (hRows : after.rows = table.rows ++ [added]) :
    after.find? condition =
      (table.find? condition).or (if condition added then some added else none) := by
  unfold find?
  rw [hRows, List.find?_append]
  cases h : condition added <;> simp [h]

/-- The table of the rows that meet a condition. -/
def filter (table : Table keys clash) (condition : Row → Bool) : Table keys clash where
  rows := table.rows.filter condition
  distinct := table.distinct.filter condition

@[simp] theorem filter_rows (table : Table keys clash) (condition : Row → Bool) :
    (table.filter condition).rows = table.rows.filter condition := rfl

@[simp] theorem filter_filter_self (table : Table keys clash) (condition : Row → Bool) :
    (table.filter condition).filter condition = table.filter condition := by
  apply ext
  simp

/-- A lookup by a unique key finds in a part of the table what the table has
there, when it lies in the part. -/
theorem find?_filter {table : Table keys clash} {condition selects : Row → Bool}
    (hKey : ∀ first second, selects first → selects second → clash (keys first) (keys second)) :
    (table.filter condition).find? selects = (table.find? selects).filter condition := by
  apply Option.ext
  intro row
  rw [find?_eq_some hKey, Option.filter_eq_some_iff, find?_eq_some hKey]
  simp only [filter_rows, List.mem_filter]
  tauto

/-- A lookup that selects only rows of the part. -/
theorem find?_filter_of_imp {table : Table keys clash} {condition selects : Row → Bool}
    (hPart : ∀ row ∈ table.rows, selects row → condition row) :
    (table.filter condition).find? selects = table.find? selects := by
  unfold find?
  rw [filter_rows]
  generalize table.rows = rows at hPart
  induction rows with
  | nil => rfl
  | cons row rest ih =>
      have hRest := ih fun other hOther => hPart other (List.mem_cons_of_mem _ hOther)
      by_cases hSelects : selects row
      · rw [List.filter_cons_of_pos (hPart row List.mem_cons_self hSelects), List.find?_cons_of_pos hSelects,
          List.find?_cons_of_pos hSelects]
      · rw [List.find?_cons_of_neg hSelects, ← hRest, List.filter_cons]
        split
        · exact List.find?_cons_of_neg hSelects
        · rfl

theorem insert?_eq_none [DecidableRel clash] {table : Table keys clash} {row : Row} :
    table.insert? row = none ↔ ∃ stored ∈ table.rows, clash (keys stored) (keys row) := by
  constructor
  · intro hNone
    by_contra hFresh
    push Not at hFresh
    have hDistinct : (table.rows ++ [row]).Pairwise fun first second => ¬clash (keys first) (keys second) := by
      refine List.pairwise_append.mpr ⟨table.distinct, List.pairwise_singleton _ _, ?_⟩
      intro stored hStored added hAdded
      rw [List.mem_singleton.mp hAdded]
      exact hFresh stored hStored
    unfold insert? at hNone
    rw [dif_pos hDistinct] at hNone
    cases hNone
  · rintro ⟨stored, hStored, hClash⟩
    rw [Option.eq_none_iff_forall_ne_some]
    intro after hInsert
    exact (insert?_eq_some.mp hInsert).1 stored hStored hClash

/-- A row that clashes with rows of its own part only is inserted into the part
as it is into the table. -/
theorem insert?_filter [DecidableRel clash] {table : Table keys clash} {condition : Row → Bool} {row : Row}
    (hRow : condition row)
    (hPart : ∀ stored ∈ table.rows, clash (keys stored) (keys row) → condition stored) :
    (table.filter condition).insert? row = (table.insert? row).map fun after => after.filter condition := by
  cases hInsert : table.insert? row with
  | some after =>
      obtain ⟨hFresh, hRows⟩ := insert?_eq_some.mp hInsert
      refine insert?_eq_some.mpr ⟨fun stored hStored => hFresh stored (List.mem_of_mem_filter hStored), ?_⟩
      simp [hRows, hRow]
  | none =>
      obtain ⟨stored, hStored, hClash⟩ := insert?_eq_none.mp hInsert
      exact insert?_eq_none.mpr
        ⟨stored, List.mem_filter.mpr ⟨hStored, hPart stored hStored hClash⟩, hClash⟩

/-- A row outside the part leaves the part as it was. -/
theorem filter_insert? [DecidableRel clash] {table after : Table keys clash} {condition : Row → Bool}
    {row : Row} (hInsert : table.insert? row = some after) (hRow : ¬condition row) :
    after.filter condition = table.filter condition := by
  apply ext
  simp [(insert?_eq_some.mp hInsert).2, hRow]

/-- A change that keeps rows in their part commutes with taking the part. -/
theorem filter_changed {rows : List Row} {condition selected : Row → Bool} {change : Row → Row}
    (hKeeps : ∀ row ∈ rows, selected row → condition (change row) = condition row) :
    (changed rows selected change).filter condition = changed (rows.filter condition) selected change := by
  unfold changed
  rw [List.filter_map]
  congr 1
  apply List.filter_congr
  intro row hRow
  simp only [Function.comp_apply]
  split
  · next hSelected => exact hKeeps row hRow hSelected
  · rfl

/-- A change of rows of the part that then clash with rows of the part only is
accepted in the part as it is in the table. -/
theorem update?_filter [DecidableRel clash] {table : Table keys clash} {condition selected : Row → Bool}
    {change : Row → Row} (hKeeps : ∀ row ∈ table.rows, selected row → condition row ∧ condition (change row))
    (hPart : ∀ row ∈ table.rows, selected row → ∀ stored ∈ table.rows,
      clash (keys (change row)) (keys stored) ∨ clash (keys stored) (keys (change row)) → condition stored) :
    (table.filter condition).update? selected change =
      (table.update? selected change).map fun after => after.filter condition := by
  have hRows : (changed table.rows selected change).filter condition =
      changed (table.rows.filter condition) selected change := by
    apply filter_changed
    intro row hRow hSelected
    obtain ⟨hBefore, hAfter⟩ := hKeeps row hRow hSelected
    rw [hBefore, hAfter]
  cases hUpdate : table.update? selected change with
  | some after =>
      refine update?_eq_some.mpr ?_
      rw [filter_rows, filter_rows, update?_eq_some.mp hUpdate, hRows]
  | none =>
      rw [Option.map_none, Option.eq_none_iff_forall_ne_some]
      intro part hPartial
      have hDistinct := part.distinct
      rw [update?_eq_some.mp hPartial, filter_rows] at hDistinct
      unfold changed at hDistinct
      rw [List.pairwise_map, List.pairwise_filter] at hDistinct
      have hWhole : (changed table.rows selected change).Pairwise
          fun first second => ¬clash (keys first) (keys second) := by
        unfold changed
        rw [List.pairwise_map]
        refine (table.distinct.and hDistinct).imp_of_mem ?_
        rintro first second hFirst hSecond ⟨hBefore, hAfter⟩ hClash
        by_cases hSelected : selected first
        · refine hAfter (hKeeps first hFirst hSelected).1 ?_ hClash
          by_cases hOther : selected second
          · exact (hKeeps second hSecond hOther).1
          · rw [if_pos hSelected, if_neg hOther] at hClash
            exact hPart first hFirst hSelected second hSecond (Or.inl hClash)
        · by_cases hOther : selected second
          · refine hAfter ?_ (hKeeps second hSecond hOther).1 hClash
            rw [if_neg hSelected, if_pos hOther] at hClash
            exact hPart second hSecond hOther first hFirst (Or.inr hClash)
          · rw [if_neg hSelected, if_neg hOther] at hClash
            exact hBefore hClash
      unfold update? at hUpdate
      rw [dif_pos hWhole] at hUpdate
      cases hUpdate

/-- A change of rows outside the part leaves the part as it was. -/
theorem filter_changed_of_not {rows : List Row} {condition selected : Row → Bool} {change : Row → Row}
    (hOther : ∀ row ∈ rows, selected row → ¬condition row ∧ ¬condition (change row)) :
    (changed rows selected change).filter condition = rows.filter condition := by
  induction rows with
  | nil => rfl
  | cons row rest ih =>
      have hRest := ih fun other hMem => hOther other (List.mem_cons_of_mem _ hMem)
      unfold changed at hRest ⊢
      rw [List.map_cons]
      by_cases hSelected : selected row
      · obtain ⟨hRow, hChanged⟩ := hOther row List.mem_cons_self hSelected
        rw [if_pos hSelected, List.filter_cons_of_neg hChanged, List.filter_cons_of_neg hRow, hRest]
      · rw [if_neg hSelected, List.filter_cons, List.filter_cons, hRest]

/-- Updating rows commutes with a lookup whose condition the update keeps. -/
theorem find?_changed {rows : List Row} {condition selected : Row → Bool} {change : Row → Row}
    (hKeeps : ∀ row, selected row → condition (change row) = condition row) :
    (changed rows selected change).find? condition =
      (rows.find? condition).map fun row => if selected row then change row else row := by
  unfold changed
  rw [List.find?_map]
  congr 1
  congr 1
  funext row
  simp only [Function.comp_apply]
  split
  · next h => exact hKeeps row h
  · rfl

theorem mem_changed {rows : List Row} {selected : Row → Bool} {change : Row → Row} {row : Row} :
    row ∈ changed rows selected change ↔
      (∃ old ∈ rows, selected old ∧ change old = row) ∨ (row ∈ rows ∧ ¬selected row) := by
  unfold changed
  rw [List.mem_map]
  constructor
  · rintro ⟨old, hOld, hRow⟩
    by_cases hSelected : selected old
    · exact Or.inl ⟨old, hOld, hSelected, by simpa [hSelected] using hRow⟩
    · simp only [hSelected, Bool.false_eq_true, if_false] at hRow
      subst hRow
      exact Or.inr ⟨hOld, hSelected⟩
  · rintro (⟨old, hOld, hSelected, hRow⟩ | ⟨hRow, hSelected⟩)
    · exact ⟨old, hOld, by simpa [hSelected] using hRow⟩
    · exact ⟨row, hRow, by simp [hSelected]⟩

/-- A condition that two distinct rows cannot both meet is met once, if at all. -/
theorem countP_eq_one {table : Table keys clash} {condition : Row → Bool}
    (hKey : ∀ first second, condition first → condition second →
      clash (keys first) (keys second))
    (hExists : ∃ row ∈ table.rows, condition row) : table.rows.countP condition = 1 := by
  have hDistinct := table.distinct
  revert hExists
  generalize table.rows = rows at hDistinct
  induction rows with
  | nil =>
      intro hExists
      simp at hExists
  | cons row rest ih =>
      intro hExists
      obtain ⟨hFirst, hRest⟩ := List.pairwise_cons.mp hDistinct
      by_cases hCondition : condition row
      · have hNone : rest.countP condition = 0 := by
          rw [List.countP_eq_zero]
          intro other hOther hMeets
          exact hFirst other hOther (hKey row other hCondition hMeets)
        rw [List.countP_cons_of_pos hCondition, hNone]
      · rw [List.countP_cons_of_neg hCondition]
        apply ih hRest
        obtain ⟨found, hFound, hMeets⟩ := hExists
        rcases List.mem_cons.mp hFound with rfl | hFound
        · exact absurd hMeets hCondition
        · exact ⟨found, hFound, hMeets⟩

private theorem sum_indicator {Owner Total : Type} [AddCommMonoid Total] (condition : Owner → Bool)
    (value : Total) (owners : List Owner) :
    (owners.map fun owner => if condition owner then value else 0).sum =
      owners.countP condition • value := by
  induction owners with
  | nil => simp
  | cons owner rest ih =>
      rw [List.map_cons, List.sum_cons, ih, List.countP_cons]
      by_cases h : condition owner
      · rw [if_pos h, if_pos h, succ_nsmul, add_comm]
      · rw [if_neg h, if_neg h, zero_add, add_zero]

/-- Where every row belongs to exactly one owner, a total over the rows is the
sum over the owners of the totals of their rows. -/
theorem sum_by_owner {Owner Total : Type} [AddCommMonoid Total] (belongs : Row → Owner → Bool)
    (value : Row → Total) {rows : List Row} {owners : List Owner}
    (hOwner : ∀ row ∈ rows, owners.countP (belongs row) = 1) :
    (rows.map value).sum =
      (owners.map fun owner => ((rows.filter fun row => belongs row owner).map value).sum).sum := by
  induction rows with
  | nil => simp
  | cons row rest ih =>
      have hSplit : ∀ owner, (((row :: rest).filter fun row => belongs row owner).map value).sum =
          (if belongs row owner then value row else 0) +
            ((rest.filter fun row => belongs row owner).map value).sum := by
        intro owner
        by_cases h : belongs row owner
        · simp [h]
        · simp [h]
      have hRest := ih fun other hOther => hOwner other (List.mem_cons_of_mem _ hOther)
      simp only [hSplit]
      rw [List.sum_map_add, sum_indicator, hOwner row List.mem_cons_self, one_nsmul, List.map_cons,
        List.sum_cons, hRest]

end Table
