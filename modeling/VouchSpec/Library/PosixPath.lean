import Mathlib.Data.List.Infix
import Mathlib.Data.String.Basic

/-! Pure POSIX paths: a root, and names that a slash parts. -/

/-- A parsed path. -/
structure PosixPath where
  root : String
  names : List String
deriving DecidableEq

namespace PosixPath

/-- `value.split("/")`. -/
def segments (value : String) : List String := (value.toList.splitOn '/').map String.ofList

/-- The root that a path begins with: exactly two slashes stay two. -/
def rootOf (value : String) : String :=
  if value.toList.head? ≠ some '/' then ""
  else if value.toList[1]? = some '/' ∧ value.toList[2]? ≠ some '/' then "//"
  else "/"

/-- `PurePosixPath(value)`. -/
def ofString (value : String) : PosixPath where
  root := rootOf value
  names := (segments value).filter fun name => name ≠ "" && name ≠ "."

/-- `"/".join(names)`. -/
def join (names : List String) : String := String.ofList (List.intercalate ['/'] (names.map String.toList))

/-- `as_posix`. -/
def asPosix (path : PosixPath) : String :=
  if path.root = "" ∧ path.names = [] then "." else path.root ++ join path.names

def parts (path : PosixPath) : List String :=
  if path.root = "" then path.names else path.root :: path.names

def parent (path : PosixPath) : PosixPath := { path with names := path.names.dropLast }

/-- `name`. -/
def name (path : PosixPath) : String := path.names.getLast?.getD ""

/-- The loop over a path and its parents that ends at `.`; none when so many rounds do
not come to it. -/
def climb : Nat → PosixPath → Option (List String)
  | 0, path => if path.asPosix = "." then some [] else none
  | rounds + 1, path =>
      if path.asPosix = "." then some [] else (climb rounds path.parent).map fun rest => path.asPosix :: rest

/-- A name that an entry of a directory can have, other than `..`. -/
structure IsName (name : String) : Prop where
  nonempty : name ≠ ""
  notDot : name ≠ "."
  noSlash : '/' ∉ name.toList

theorem not_mem_splitOn {characters part : List Char} (h : part ∈ characters.splitOn '/') : '/' ∉ part := by
  induction characters generalizing part with
  | nil =>
      rw [List.splitOn_nil, List.mem_singleton] at h
      simp [h]
  | cons c rest ih =>
      rw [List.splitOn_cons_eq_if_modifyHead] at h
      split at h
      · rcases List.mem_cons.mp h with rfl | hRest
        · simp
        · exact ih hRest
      · next hC =>
          cases hSplit : rest.splitOn '/' with
          | nil => exact absurd hSplit (List.splitOn_ne_nil _ _)
          | cons first others =>
              rw [hSplit] at h ih
              rcases List.mem_cons.mp h with rfl | hOther
              · simpa [eq_comm] using ⟨by simpa using hC, ih List.mem_cons_self⟩
              · exact ih (List.mem_cons_of_mem _ hOther)

theorem isName_ofString {value name : String} (h : name ∈ (ofString value).names) : IsName name := by
  obtain ⟨hSegment, hKept⟩ := List.mem_filter.mp h
  obtain ⟨part, hPart, rfl⟩ := List.mem_map.mp hSegment
  simp only [Bool.and_eq_true, decide_eq_true_eq] at hKept
  exact ⟨hKept.1, hKept.2, by simpa using not_mem_splitOn hPart⟩

theorem join_singleton (name : String) : join [name] = name := by
  simp [join]

theorem join_concat {names : List String} (hNames : names ≠ []) (name : String) :
    join (names ++ [name]) = join names ++ "/" ++ name := by
  have hJoin : ∀ (first : List Char) (others : List (List Char)),
      List.intercalate ['/'] (first :: others ++ [name.toList]) =
        List.intercalate ['/'] (first :: others) ++ '/' :: name.toList := by
    intro first others
    induction others generalizing first with
    | nil => simp
    | cons next rest ih =>
        have hTail := ih next
        simp only [List.cons_append, List.intercalate_cons_cons] at hTail ⊢
        rw [hTail]
        simp
  cases names with
  | nil => exact absurd rfl hNames
  | cons first others =>
      refine String.toList_injective ?_
      simp only [join, List.map_append, List.map_cons, List.map_nil, String.toList_ofList, String.toList_append]
      rw [hJoin]
      simp

/-- What begins with some names begins with their text. -/
theorem join_append {front : List String} (hFront : front ≠ []) (back : List String) :
    ∃ rest, join (front ++ back) = join front ++ rest := by
  induction back using List.reverseRecOn with
  | nil => exact ⟨"", by simp⟩
  | append_singleton init last ih =>
      obtain ⟨rest, hRest⟩ := ih
      have hSome : front ++ init ≠ [] := fun hNone => hFront (List.append_eq_nil_iff.mp hNone).1
      refine ⟨rest ++ "/" ++ last, ?_⟩
      rw [← List.append_assoc, join_concat hSome, hRest]
      simp only [String.append_assoc]

theorem join_ne_empty {names : List String} (hNames : names ≠ []) (hNonempty : ∀ name ∈ names, name ≠ "") :
    join names ≠ "" := by
  cases names with
  | nil => exact absurd rfl hNames
  | cons first more =>
      obtain ⟨rest, hRest⟩ := join_append (List.cons_ne_nil first []) more
      rw [List.singleton_append, join_singleton] at hRest
      intro hEmpty
      rw [hRest] at hEmpty
      exact hNonempty first List.mem_cons_self (String.append_eq_empty_iff.mp hEmpty).1

/-- The text of a path whose last name is not empty. -/
theorem asPosix_ne_empty {names : List String} (hLast : names.getLast? ≠ some "") : asPosix ⟨"", names⟩ ≠ "" := by
  induction names using List.reverseRecOn with
  | nil => simp [asPosix]
  | append_singleton init last ih =>
      have hName : last ≠ "" := by simpa using hLast
      have hJoin : join (init ++ [last]) ≠ "" := by
        by_cases hInit : init = []
        · rwa [hInit, List.nil_append, join_singleton]
        · rw [join_concat hInit]
          exact fun hEmpty => hName (String.append_eq_empty_iff.mp hEmpty).2
      simpa [asPosix] using hJoin

section
variable {names : List String}

theorem segments_join (hNames : names ≠ []) (hValid : ∀ name ∈ names, IsName name) : segments (join names) = names := by
  have hSlash : ∀ part ∈ names.map String.toList, '/' ∉ part := by
    intro part hPart
    obtain ⟨name, hName, rfl⟩ := List.mem_map.mp hPart
    exact (hValid name hName).noSlash
  rw [segments, join, String.toList_ofList, List.splitOn_intercalate '/' hSlash (by simpa using hNames), List.map_map]
  simp

theorem head_join (hNames : names ≠ []) (hValid : ∀ name ∈ names, IsName name) :
    (join names).toList.head? ≠ some '/' := by
  cases names with
  | nil => exact absurd rfl hNames
  | cons first others =>
      have hFirst := hValid first List.mem_cons_self
      have hNonempty : first.toList ≠ [] := by simpa using hFirst.nonempty
      cases hText : first.toList with
      | nil => exact absurd hText hNonempty
      | cons c rest =>
          have hJoin : (join (first :: others)).toList.head? = some c := by
            cases others with
            | nil => simp [join, hText]
            | cons next more => simp [join, hText, List.intercalate_cons_cons]
          rw [hJoin]
          intro hSlash
          obtain rfl := Option.some.inj hSlash
          exact hFirst.noSlash (hText ▸ List.mem_cons_self)

/-- Joined names are parsed back. -/
theorem ofString_join (hNames : names ≠ []) (hValid : ∀ name ∈ names, IsName name) :
    ofString (join names) = ⟨"", names⟩ := by
  have hKept : names.filter (fun name => name ≠ "" && name ≠ ".") = names := by
    refine List.filter_eq_self.mpr ?_
    intro name hName
    simp [(hValid name hName).nonempty, (hValid name hName).notDot]
  rw [ofString, segments_join hNames hValid, hKept, rootOf, if_pos (head_join hNames hValid)]

theorem join_inj {others : List String} (hNames : names ≠ []) (hValid : ∀ name ∈ names, IsName name)
    (hOthers : others ≠ []) (hMore : ∀ name ∈ others, IsName name) (h : join names = join others) : names = others := by
  have hParsed := ofString_join hNames hValid
  rw [h, ofString_join hOthers hMore] at hParsed
  exact (congrArg PosixPath.names hParsed).symm

theorem join_ne_dot (hNames : names ≠ []) (hValid : ∀ name ∈ names, IsName name) : join names ≠ "." := by
  intro hDot
  have hParsed := ofString_join hNames hValid
  rw [hDot] at hParsed
  exact hNames (congrArg PosixPath.names hParsed).symm

/-- The loop over the parents of a path without a root goes over all of its beginnings. -/
theorem climb_relative (hValid : ∀ name ∈ names, IsName name) {rounds : Nat} (hRounds : names.length ≤ rounds) :
    ∃ paths, climb rounds ⟨"", names⟩ = some paths ∧
      ∀ path, path ∈ paths ↔ ∃ front, front ≠ [] ∧ front <+: names ∧ path = join front := by
  induction names using List.reverseRecOn generalizing rounds with
  | nil =>
      refine ⟨[], by cases rounds <;> rfl, ?_⟩
      intro path
      constructor
      · intro hNone
        cases hNone
      · rintro ⟨front, hFront, hPrefix, -⟩
        exact absurd (List.prefix_nil.mp hPrefix) hFront
  | append_singleton init last ih =>
      have hNames : init ++ [last] ≠ [] := by simp
      cases rounds with
      | zero => simp at hRounds
      | succ rounds =>
          rw [List.length_append, List.length_singleton] at hRounds
          obtain ⟨paths, hPaths, hMember⟩ := ih (fun name hName => hValid name (List.mem_append_left _ hName))
            (Nat.le_of_succ_le_succ hRounds)
          have hPosix : asPosix ⟨"", init ++ [last]⟩ = join (init ++ [last]) := by simp [asPosix]
          have hParent : parent ⟨"", init ++ [last]⟩ = ⟨"", init⟩ := by simp [parent]
          refine ⟨join (init ++ [last]) :: paths, ?_, ?_⟩
          · rw [climb, hPosix, if_neg (join_ne_dot hNames hValid), hParent, hPaths]
            rfl
          · intro path
            rw [List.mem_cons, hMember]
            constructor
            · rintro (rfl | ⟨front, hFront, hPrefix, rfl⟩)
              · exact ⟨_, hNames, List.prefix_refl _, rfl⟩
              · exact ⟨front, hFront, hPrefix.trans (List.prefix_append _ _), rfl⟩
            · rintro ⟨front, hFront, hPrefix, rfl⟩
              rcases List.prefix_concat_iff.mp hPrefix with rfl | hInit
              · exact Or.inl rfl
              · exact Or.inr ⟨front, hFront, hInit, rfl⟩

end

theorem rootOf_cases (value : String) : rootOf value = "" ∨ (rootOf value).toList.head? = some '/' := by
  unfold rootOf
  split
  · exact Or.inl rfl
  · split
    · exact Or.inr (by simp)
    · exact Or.inr (by simp)

/-- For a path with a root the loop comes to no end. -/
theorem climb_rooted {path : PosixPath} (hRoot : path.root.toList.head? = some '/') (rounds : Nat) :
    climb rounds path = none := by
  have hDot : ∀ path : PosixPath, path.root.toList.head? = some '/' → path.asPosix ≠ "." := by
    intro path hRoot hDot
    have hSome : path.root ≠ "" := by
      intro hNone
      rw [hNone] at hRoot
      simp at hRoot
    rw [asPosix, if_neg fun h => hSome h.1] at hDot
    have hHead := congrArg (fun value : String => value.toList.head?) hDot
    simp [hRoot] at hHead
  induction rounds generalizing path with
  | zero => rw [climb, if_neg (hDot path hRoot)]
  | succ rounds ih =>
      rw [climb, if_neg (hDot path hRoot), @ih path.parent hRoot]
      rfl

end PosixPath
