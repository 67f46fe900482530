import VouchSpec.Library.Document

/-! The canonical order of the members of an object: it depends only on the members,
sorting twice changes nothing more, and taking members out commutes with it. -/

namespace Json

/-- The order of members by their names. -/
private abbrev byName (first second : String × Json) : Prop := first.1 ≤ second.1

private instance : Std.Total byName := ⟨fun first second => String.le_total first.1 second.1⟩

private instance : IsTrans (String × Json) byName := ⟨fun _ _ _ => String.le_trans⟩

private theorem eq_of_byName {members : List (String × Json)} (hNames : (members.map Prod.fst).Nodup)
    {first second : String × Json} (hFirst : first ∈ members) (hSecond : second ∈ members)
    (hLe : byName first second) (hGe : byName second first) : first = second := by
  have hName : first.1 = second.1 := String.le_antisymm hLe hGe
  exact List.inj_on_of_nodup_map hNames hFirst hSecond hName

/-- Members with distinct names have one order. -/
theorem sort_eq_of_perm {first second : List (String × Json)} (hPerm : first.Perm second)
    (hNames : (first.map Prod.fst).Nodup) : first.insertionSort byName = second.insertionSort byName := by
  have hSorted := List.perm_insertionSort byName first
  have hOther := List.perm_insertionSort byName second
  refine List.Perm.eq_of_pairwise ?_ (List.pairwise_insertionSort byName first)
    (List.pairwise_insertionSort byName second) ((hSorted.trans hPerm).trans hOther.symm)
  intro a b ha hb
  exact eq_of_byName hNames (hSorted.mem_iff.mp ha) (hPerm.mem_iff.mpr (hOther.mem_iff.mp hb))

private theorem names_sorted (members : List (String × Json)) :
    (members.map fun member => (member.1, member.2.sorted)).map Prod.fst = members.map Prod.fst := by
  rw [List.map_map]
  rfl

/-- The order of the members does not matter. -/
theorem sorted_obj_eq_of_perm {first second : List (String × Json)} (hPerm : first.Perm second)
    (hNames : (first.map Prod.fst).Nodup) : (obj first).sorted = (obj second).sorted := by
  rw [sorted, sorted, sortedMembers_eq_map, sortedMembers_eq_map,
    sort_eq_of_perm (hPerm.map _) (names_sorted first ▸ hNames)]

/-- Sorting twice is sorting once. -/
theorem sorted_sorted {value : Json} {depth : Nat} (hPlain : value.Plain depth) : value.sorted.sorted = value.sorted := by
  induction depth generalizing value with
  | zero =>
      cases value with
      | arr items => exact absurd hPlain (not_plain_arr items)
      | obj members => exact absurd hPlain (not_plain_obj members)
      | _ => simp only [sorted]
  | succ depth ih =>
      cases value with
      | arr items =>
          simp only [sorted, sortedItems_eq_map, List.map_map]
          congr 1
          exact List.map_congr_left fun item hItem => ih (hPlain item hItem)
      | obj members =>
          have hSame : (members.map fun member => (member.1, member.2.sorted)).map
              (fun member => (member.1, member.2.sorted)) = members.map fun member => (member.1, member.2.sorted) := by
            rw [List.map_map]
            exact List.map_congr_left fun member hMember => Prod.ext rfl (ih (hPlain.2 member hMember))
          have hPerm := (sorted_perm members).map fun member => (member.1, member.2.sorted)
          rw [hSame] at hPerm
          simp only [sorted, sortedMembers_eq_map]
          exact congrArg obj (sort_eq_of_perm hPerm.symm ((names_sorted members).symm ▸ hPlain.1)).symm
      | _ => simp only [sorted]

/-- An object without some of its members. -/
def without (names : List String) : Json → Json
  | obj members => obj (members.filter fun member => member.1 ∉ names)
  | value => value

/-- The other members stay. -/
theorem get?_without {names : List String} {name : String} (hName : name ∉ names) (value : Json) :
    (without names value).get? name = value.get? name := by
  cases value with
  | obj members =>
      rw [without, get?, get?, List.find?_filter]
      congr 2
      funext member
      by_cases hSame : member.1 = name <;> simp [hSame, hName]
  | _ => rfl

theorem without_nil (members : List (String × Json)) {names : List String}
    (hNames : ∀ member ∈ members, member.1 ∉ names) : without names (obj members) = obj members := by
  rw [without, List.filter_eq_self.mpr fun member hMember => decide_eq_true (hNames member hMember)]

/-- Members that were added can be taken out again. -/
theorem without_append {members added : List (String × Json)} {names : List String}
    (hMembers : ∀ member ∈ members, member.1 ∉ names) (hAdded : ∀ member ∈ added, member.1 ∈ names) :
    without names (obj (members ++ added)) = obj members := by
  have hNone : (added.filter fun member => member.1 ∉ names) = [] := by
    rw [List.filter_eq_nil_iff]
    intro member hMember
    simpa using hAdded member hMember
  rw [without, List.filter_append, hNone, List.append_nil,
    List.filter_eq_self.mpr fun member hMember => decide_eq_true (hMembers member hMember)]

/-- Members can be taken out before or after sorting. -/
theorem without_sorted (names : List String) {value : Json} {depth : Nat} (hPlain : value.Plain depth) :
    (without names value.sorted).sorted = (without names value).sorted := by
  cases value with
  | obj members =>
      cases depth with
      | zero => exact absurd hPlain (not_plain_obj members)
      | succ depth =>
          have hPerm := (sorted_perm members).filter fun member => member.1 ∉ names
          have hFilter : (members.map fun member => (member.1, member.2.sorted)).filter
              (fun member => member.1 ∉ names) =
              (members.filter fun member => member.1 ∉ names).map fun member => (member.1, member.2.sorted) := by
            rw [List.filter_map]
            rfl
          rw [hFilter] at hPerm
          have hSame : ((members.filter fun member => member.1 ∉ names).map fun member =>
              (member.1, member.2.sorted)).map (fun member => (member.1, member.2.sorted)) =
              (members.filter fun member => member.1 ∉ names).map fun member => (member.1, member.2.sorted) := by
            rw [List.map_map]
            refine List.map_congr_left fun member hMember => Prod.ext rfl ?_
            exact sorted_sorted (hPlain.2 member (List.mem_of_mem_filter hMember))
          have hMapped := hPerm.map fun member => (member.1, member.2.sorted)
          rw [hSame] at hMapped
          have hNames : ((members.filter fun member => member.1 ∉ names).map Prod.fst).Nodup :=
            hPlain.1.sublist ((List.filter_sublist).map _)
          simp only [sorted, without, sortedMembers_eq_map]
          exact congrArg obj (sort_eq_of_perm hMapped.symm ((names_sorted _).symm ▸ hNames)).symm
  | arr items =>
      have hTwice := sorted_sorted hPlain
      simpa only [sorted, without] using hTwice
  | _ => simp only [sorted, without]

end Json
