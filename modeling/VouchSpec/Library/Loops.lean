import Mathlib.Data.List.Nodup
import VouchSpec.Library.Routine

/-! Loops over lists: when every step of a loop that can fail returns, and what a loop
keeps that skips the items it has, up to a count. -/

namespace Except

variable {Error State Item Result : Type}

/-- A map returns when it does on each item. -/
theorem mapM_ok_iff {change : Item → Except Error Result} {items : List Item} :
    (∃ results, items.mapM change = .ok results) ↔ ∀ item ∈ items, ∃ result, change item = .ok result := by
  induction items with
  | nil => simp [pure, Except.pure]
  | cons item rest ih =>
      simp only [List.mapM_cons, bind_eq_ok_iff, pure_eq_ok_iff, List.forall_mem_cons, ← ih]
      constructor
      · rintro ⟨_, result, hResult, results, hResults, -⟩
        exact ⟨⟨result, hResult⟩, results, hResults⟩
      · rintro ⟨⟨result, hResult⟩, results, hResults⟩
        exact ⟨_, result, hResult, results, hResults, rfl⟩

/-- What a map returns, item by item. -/
theorem forall₂_of_mapM {change : Item → Except Error Result} {items : List Item} {results : List Result}
    (h : items.mapM change = .ok results) : List.Forall₂ (fun item result => change item = .ok result) items results := by
  induction items generalizing results with
  | nil =>
      obtain rfl := pure_eq_ok_iff.mp h
      exact .nil
  | cons item rest ih =>
      simp only [List.mapM_cons, bind_eq_ok_iff, pure_eq_ok_iff] at h
      obtain ⟨result, hResult, others, hOthers, rfl⟩ := h
      exact .cons hResult (ih hOthers)

/-- A loop returns when each of its steps does, whatever has come before it. -/
theorem foldlM_ok_iff {step : State → Item → Except Error State} {good : Item → Prop}
    (hStep : ∀ state item, (∃ next, step state item = .ok next) ↔ good item) {items : List Item} {state : State} :
    (∃ last, items.foldlM step state = .ok last) ↔ ∀ item ∈ items, good item := by
  induction items generalizing state with
  | nil => simp [pure, Except.pure]
  | cons item rest ih =>
      simp only [List.foldlM_cons, bind_eq_ok_iff, List.forall_mem_cons]
      constructor
      · rintro ⟨last, next, hNext, hLast⟩
        exact ⟨(hStep state item).mp ⟨next, hNext⟩, ih.mp ⟨last, hLast⟩⟩
      · rintro ⟨hItem, hRest⟩
        obtain ⟨next, hNext⟩ := (hStep state item).mpr hItem
        obtain ⟨last, hLast⟩ := (@ih next).mpr hRest
        exact ⟨last, next, hNext, hLast⟩

/-- What each step of a loop keeps holds when the loop returns. -/
theorem foldlM_keeps {step : State → Item → Except Error State} {invariant : State → Prop}
    (hStep : ∀ state item next, invariant state → step state item = .ok next → invariant next) {items : List Item}
    {state last : State} (hState : invariant state) (h : items.foldlM step state = .ok last) : invariant last := by
  induction items generalizing state with
  | nil => exact pure_eq_ok_iff.mp h ▸ hState
  | cons item rest ih =>
      obtain ⟨next, hNext, hRest⟩ := bind_eq_ok_iff.mp h
      exact ih (hStep state item next hState hNext) hRest

/-- A loop without a state returns when each of its steps does. -/
theorem forM_eq_ok_iff {action : Item → Except Error Unit} {items : List Item} :
    items.forM action = .ok () ↔ ∀ item ∈ items, action item = .ok () := by
  induction items with
  | nil => simp [pure, Except.pure]
  | cons item rest ih =>
      show (action item >>= fun _ => rest.forM action) = .ok () ↔ _
      rw [bind_eq_ok_iff, List.forall_mem_cons]
      constructor
      · rintro ⟨⟨⟩, hItem, hRest⟩
        exact ⟨hItem, ih.mp hRest⟩
      · rintro ⟨hItem, hRest⟩
        exact ⟨(), hItem, ih.mpr hRest⟩

end Except

namespace List

/-- An item whose key is new, before items whose keys are new after it. -/
theorem nodup_cons_of_fresh {Item Key : Type} {key : Item → Key} {seen : List Key} {first : Item} {others : List Item}
    (hHead : key first ∉ seen) (hNodup : (others.map key).Nodup)
    (hFresh : ∀ other ∈ others, key other ∉ key first :: seen) :
    ((first :: others).map key).Nodup ∧ ∀ item ∈ first :: others, key item ∉ seen := by
  constructor
  · rw [map_cons, nodup_cons]
    refine ⟨?_, hNodup⟩
    intro hMember
    obtain ⟨other, hOther, hSame⟩ := mem_map.mp hMember
    exact hFresh other hOther (hSame ▸ mem_cons_self)
  · intro item hItem
    rcases mem_cons.mp hItem with rfl | hOther
    · exact hHead
    · exact fun hSeen => hFresh item hOther (mem_cons_of_mem _ hSeen)

variable {Item : Type} [DecidableEq Item]

/-- The items that are kept after those before them. -/
def keepDistinct (limit : Nat) (kept : List Item) : List Item → List Item
  | [] => kept
  | item :: rest =>
      if item ∈ kept ∨ limit ≤ kept.length then keepDistinct limit kept rest
      else keepDistinct limit (kept ++ [item]) rest

/-- The first distinct items. -/
def firstDistinct (limit : Nat) (items : List Item) : List Item := keepDistinct limit [] items

theorem keepDistinct_append (limit : Nat) (kept first second : List Item) :
    keepDistinct limit kept (first ++ second) = keepDistinct limit (keepDistinct limit kept first) second := by
  induction first generalizing kept with
  | nil => rfl
  | cons item rest ih =>
      rw [cons_append, keepDistinct, keepDistinct]
      split
      · exact ih kept
      · exact ih (kept ++ [item])

theorem keepDistinct_length {limit : Nat} {kept : List Item} (hKept : kept.length ≤ limit) (items : List Item) :
    (keepDistinct limit kept items).length ≤ limit := by
  induction items generalizing kept with
  | nil => exact hKept
  | cons item rest ih =>
      rw [keepDistinct]
      split
      · exact ih hKept
      · next hNew =>
          refine ih ?_
          rw [length_append, length_singleton]
          omega

/-- What a loop keeps whose steps keep what their items come to. -/
theorem foldl_keepDistinct {State Source : Type} {limit : Nat} {step : State → Source → State}
    {keep : State → List Item} {items : Source → List Item}
    (hStep : ∀ state source, keep (step state source) = keepDistinct limit (keep state) (items source))
    (sources : List Source) (state : State) :
    keep (sources.foldl step state) = keepDistinct limit (keep state) (sources.flatMap items) := by
  induction sources generalizing state with
  | nil => rfl
  | cons source rest ih =>
      rw [foldl_cons, flatMap_cons, keepDistinct_append, ih, hStep]

/-- What an item on the right is related to. -/
theorem Forall₂.exists_left {Left Right : Type} {related : Left → Right → Prop} {first : List Left} {second : List Right}
    (h : Forall₂ related first second) {item : Right} (hItem : item ∈ second) :
    ∃ other ∈ first, related other item := by
  induction h with
  | nil => cases hItem
  | cons hHead hRest ih =>
      rcases mem_cons.mp hItem with rfl | hLater
      · exact ⟨_, mem_cons_self, hHead⟩
      · obtain ⟨other, hOther, hRelated⟩ := ih hLater
        exact ⟨other, mem_cons_of_mem _ hOther, hRelated⟩

end List
