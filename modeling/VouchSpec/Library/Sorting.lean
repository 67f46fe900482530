import Mathlib.Data.List.Nodup
import Mathlib.Data.List.Sort

/-! Lists that are sorted by a key, and lists of encoded items that are taken apart
again. -/

namespace List

section
variable {Item Key : Type} [LE Key] [Std.IsLinearOrder Key] [DecidableLE Key] (key : Item → Key)

/-- Items in the order of their keys. -/
abbrev sortBy (items : List Item) : List Item := items.insertionSort fun first second => key first ≤ key second

theorem pairwise_sortBy (items : List Item) : (items.sortBy key).Pairwise fun first second => key first ≤ key second := by
  have : Std.Total fun first second : Item => key first ≤ key second := ⟨fun _ _ => Std.le_total⟩
  have : IsTrans Item fun first second => key first ≤ key second := ⟨fun _ _ _ => Std.le_trans⟩
  exact pairwise_insertionSort _ _

omit [Std.IsLinearOrder Key] in
theorem perm_sortBy (items : List Item) : (items.sortBy key).Perm items := perm_insertionSort _ _

omit [DecidableLE Key] in
/-- Sorted lists of the same items are one list, when a key stands for one item. -/
theorem eq_of_perm_of_keys {first second : List Item} (hPerm : first.Perm second)
    (hFirst : first.Pairwise fun left right => key left ≤ key right)
    (hSecond : second.Pairwise fun left right => key left ≤ key right)
    (hKeys : ∀ left ∈ first, ∀ right ∈ first, key left = key right → left = right) : first = second := by
  refine hPerm.eq_of_pairwise ?_ hFirst hSecond
  intro left right hLeft hRight hLe hGe
  exact hKeys left hLeft right (hPerm.mem_iff.mpr hRight) (Std.le_antisymm hLe hGe)

omit [Std.IsLinearOrder Key] [DecidableLE Key] in
/-- With distinct keys the order is strict. -/
theorem pairwise_ne_of_nodup {items : List Item} (hSorted : items.Pairwise fun left right => key left ≤ key right)
    (hNodup : (items.map key).Nodup) : items.Pairwise fun left right => key left ≤ key right ∧ key left ≠ key right :=
  hSorted.and (pairwise_map.mp hNodup)

end

section
variable {Item Symbol : Type}

/-- Items whose encodings can be told from what follows them. -/
def Delimited (good : Item → Prop) (encode : Item → List Symbol) : Prop :=
  ∀ first second rest other, good first → good second → encode first ++ rest = encode second ++ other →
    first = second ∧ rest = other

/-- A list of such items is read off its encoding. -/
theorem flatMap_inj {good : Item → Prop} {encode : Item → List Symbol} (hDelimited : Delimited good encode)
    (hNonempty : ∀ item, encode item ≠ []) {first second : List Item} (hFirst : ∀ item ∈ first, good item)
    (hSecond : ∀ item ∈ second, good item) (h : first.flatMap encode = second.flatMap encode) : first = second := by
  induction first generalizing second with
  | nil =>
      cases second with
      | nil => rfl
      | cons other others =>
          rw [flatMap_nil, flatMap_cons] at h
          exact absurd (append_eq_nil_iff.mp h.symm).1 (hNonempty other)
  | cons item rest ih =>
      cases second with
      | nil =>
          rw [flatMap_nil, flatMap_cons] at h
          exact absurd (append_eq_nil_iff.mp h).1 (hNonempty item)
      | cons other others =>
          rw [flatMap_cons, flatMap_cons] at h
          obtain ⟨rfl, hRest⟩ := hDelimited item other _ _ (hFirst item mem_cons_self) (hSecond other mem_cons_self) h
          rw [ih (fun found hFound => hFirst found (mem_cons_of_mem _ hFound))
            (fun found hFound => hSecond found (mem_cons_of_mem _ hFound)) hRest]

end

end List
