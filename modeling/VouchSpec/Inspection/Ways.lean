import VouchSpec.Library.PosixPath
import VouchSpec.Inspection.Walk

/-! A tree by the names on the way to its entries, those of version control as well. -/

namespace VouchSpec

namespace Inspection

/-- An entry below a name. -/
def under (name : String) (found : List String × Entry) : List String × Entry := (name :: found.1, found.2)

mutual
/-- All entries below a directory, with the names on the way to them. -/
def Entry.ways : Entry → List (List String × Entry)
  | .directory entries => waysOf entries
  | _ => []

def waysOf : List (String × Entry) → List (List String × Entry)
  | [] => []
  | (name, entry) :: rest => ([name], entry.shallow) :: (entry.ways.map (under name) ++ waysOf rest)
end

/-- The path and the size of a regular file. -/
def leaf? (found : List String × Entry) : Option (String × Nat) :=
  match found.2 with
  | .file _ content => some (PosixPath.join found.1, content.length)
  | _ => none

/-- The item of a walk, for an entry below the directory of a path. -/
def itemAt (path : String) (depth : Nat) (found : List String × Entry) : Item where
  relative := found.1.foldl childPath path
  name := found.1.getLast?.getD ""
  depth := depth + found.1.length - 1
  entry := found.2

mutual
theorem ways_ne_nil {entry : Entry} {found : List String × Entry} (h : found ∈ entry.ways) : found.1 ≠ [] := by
  cases entry with
  | directory entries => exact waysOf_ne_nil h
  | link => cases h
  | special => cases h
  | file links content => cases h

theorem waysOf_ne_nil {entries : List (String × Entry)} {found : List String × Entry} (h : found ∈ waysOf entries) :
    found.1 ≠ [] := by
  cases entries with
  | nil => cases h
  | cons child rest =>
      obtain ⟨name, entry⟩ := child
      rcases List.mem_cons.mp h with rfl | hLater
      · exact List.cons_ne_nil _ _
      · rcases List.mem_append.mp hLater with hInside | hRest
        · obtain ⟨inner, -, rfl⟩ := List.mem_map.mp hInside
          exact List.cons_ne_nil _ _
        · exact waysOf_ne_nil hRest
end

mutual
/-- On the way to an entry there are directories. -/
theorem ways_front {entry : Entry} {front back : List String} {last : Entry} (hFront : front ≠ []) (hBack : back ≠ [])
    (h : (front ++ back, last) ∈ entry.ways) : (front, Entry.directory []) ∈ entry.ways := by
  cases entry with
  | directory entries => exact waysOf_front hFront hBack h
  | link => cases h
  | special => cases h
  | file links content => cases h

theorem waysOf_front {entries : List (String × Entry)} {front back : List String} {last : Entry} (hFront : front ≠ [])
    (hBack : back ≠ []) (h : (front ++ back, last) ∈ waysOf entries) : (front, Entry.directory []) ∈ waysOf entries := by
  cases entries with
  | nil => cases h
  | cons child rest =>
      obtain ⟨name, entry⟩ := child
      cases front with
      | nil => exact absurd rfl hFront
      | cons first more =>
          rcases List.mem_cons.mp h with hHead | hLater
          · -- a way of one name has no front and back
            have hNames := congrArg (fun found : List String × Entry => found.1.length) hHead
            have hLength := List.length_pos_iff.mpr hBack
            simp at hNames
            exact absurd hNames.2 hBack
          · rcases List.mem_append.mp hLater with hInside | hRest
            · obtain ⟨inner, hInner, hSame⟩ := List.mem_map.mp hInside
              obtain ⟨names, found⟩ := inner
              simp only [under, Prod.mk.injEq, List.cons_append, List.cons.injEq] at hSame
              obtain ⟨⟨rfl, rfl⟩, rfl⟩ := hSame
              cases more with
              | nil =>
                  cases entry with
                  | directory entries => exact List.mem_cons_self
                  | link => cases hInner
                  | special => cases hInner
                  | file links content => cases hInner
              | cons second others =>
                  refine List.mem_cons_of_mem _ (List.mem_append_left _ ?_)
                  exact List.mem_map.mpr ⟨_, ways_front (List.cons_ne_nil second others) hBack hInner, rfl⟩
            · exact List.mem_cons_of_mem _ (List.mem_append_right _ (waysOf_front hFront hBack hRest))
end

mutual
/-- Without directories of version control, the contents of a tree are all that is below it. -/
theorem contents_eq_ways (path : String) (depth : Nat) {entry : Entry}
    (hKept : ∀ found ∈ entry.ways, ∀ name ∈ found.1, isExcluded name = false) :
    entry.contents path depth = entry.ways.map (itemAt path depth) := by
  cases entry with
  | directory entries => exact contentsOf_eq_ways path depth hKept
  | link => rfl
  | special => rfl
  | file links content => rfl

theorem contentsOf_eq_ways (path : String) (depth : Nat) {entries : List (String × Entry)}
    (hKept : ∀ found ∈ waysOf entries, ∀ name ∈ found.1, isExcluded name = false) :
    contentsOf path depth entries = (waysOf entries).map (itemAt path depth) := by
  cases entries with
  | nil => rfl
  | cons child rest =>
      obtain ⟨name, entry⟩ := child
      rw [waysOf, List.forall_mem_cons] at hKept
      obtain ⟨hName, hLater⟩ := hKept
      have hKeep : isExcluded name = false := hName name List.mem_cons_self
      have hInside : entry.contents (childPath path name) (depth + 1) =
          entry.ways.map (itemAt (childPath path name) (depth + 1)) := by
        refine contents_eq_ways _ _ ?_
        intro found hFound other hOther
        exact hLater (under name found) (List.mem_append_left _ (List.mem_map_of_mem hFound)) other
          (List.mem_cons_of_mem _ hOther)
      have hRest := contentsOf_eq_ways path depth fun found hFound =>
        hLater found (List.mem_append_right _ hFound)
      have hItem : ∀ found ∈ entry.ways, (itemAt path depth ∘ under name) found =
          itemAt (childPath path name) (depth + 1) found := by
        intro found hFound
        obtain ⟨names, last⟩ := found
        have hNames : names ≠ [] := ways_ne_nil hFound
        cases names with
        | nil => exact absurd rfl hNames
        | cons first more =>
            simp only [Function.comp_apply, itemAt, under, List.foldl_cons, List.length_cons, List.getLast?_cons_cons, Item.mk.injEq, and_true,
              true_and]
            omega
      rw [contentsOf, waysOf, List.map_cons, List.map_append, List.map_map, hInside, hRest]
      rw [if_neg (by simp [hKeep])]
      rw [List.map_congr_left hItem]
      rfl
end

/-- The path of an entry joins the names on the way to it. -/
theorem foldl_childPath {names : List String} (hNames : names ≠ []) (hNonempty : ∀ name ∈ names, name ≠ "") :
    names.foldl childPath "" = PosixPath.join names := by
  induction names using List.reverseRecOn with
  | nil => exact absurd rfl hNames
  | append_singleton init last ih =>
      rw [List.foldl_append]
      cases init with
      | nil => simp [childPath, PosixPath.join_singleton]
      | cons first more =>
          have hInit : ∀ name ∈ first :: more, name ≠ "" := fun name hName => hNonempty name (List.mem_append_left _ hName)
          have hSome := PosixPath.join_ne_empty (List.cons_ne_nil first more) hInit
          rw [ih (List.cons_ne_nil _ _) hInit, PosixPath.join_concat (List.cons_ne_nil _ _)]
          show childPath (PosixPath.join (first :: more)) last = _
          rw [childPath, if_neg hSome]

end Inspection

end VouchSpec
