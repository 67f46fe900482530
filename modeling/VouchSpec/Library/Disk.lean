import Mathlib.Data.List.Infix
import VouchSpec.Library.Bytes

/-! Directories and files by the names on the way to them, and the two steps that make
new ones. -/

/-- What lies at a path. -/
inductive Node where
  | directory
  | file (content : Bytes)
deriving DecidableEq

/-- A file system, in which everything lies in a directory. -/
structure Disk where
  at? : List String → Option Node
  root : at? [] = some .directory
  closed : ∀ path name, at? (path ++ [name]) ≠ none → at? path = some .directory

namespace Disk

/-- Nothing but the root. -/
def bare : Disk where
  at? path := if path = [] then some .directory else none
  root := rfl
  closed path name h := by simp at h

/-- What lies on the way to something is a directory. -/
theorem directory_of_append (disk : Disk) {path back : List String} (hBack : back ≠ [])
    (h : disk.at? (path ++ back) ≠ none) : disk.at? path = some .directory := by
  induction back using List.reverseRecOn with
  | nil => exact absurd rfl hBack
  | append_singleton init last ih =>
      rw [← List.append_assoc] at h
      have hInit := disk.closed _ _ h
      cases init with
      | nil => rwa [List.append_nil] at hInit
      | cons name more => exact ih (List.cons_ne_nil name more) (by simp [hInit])

theorem directory_of_front (disk : Disk) {front path : List String} (hPrefix : front <+: path)
    (h : disk.at? path = some .directory) : disk.at? front = some .directory := by
  obtain ⟨back, rfl⟩ := hPrefix
  by_cases hBack : back = []
  · rwa [hBack, List.append_nil] at h
  · exact disk.directory_of_append hBack (by simp [h])

/-- Nothing lies below what is not there. -/
theorem none_of_front (disk : Disk) {front path : List String} (hPrefix : front <+: path)
    (h : disk.at? front = none) : disk.at? path = none := by
  obtain ⟨back, rfl⟩ := hPrefix
  by_cases hBack : back = []
  · rwa [hBack, List.append_nil]
  · by_contra hSome
    rw [disk.directory_of_append hBack hSome] at h
    cases h

/-- A path that a directory may be made at: a directory, or nothing. -/
def isFree (disk : Disk) (path : List String) : Bool :=
  match disk.at? path with
  | some (.file _) => false
  | _ => true

/-- `path.mkdir(parents=True, exist_ok=True)`. -/
def makeDirectories (disk : Disk) (path : List String) : Option Disk :=
  if ∀ front ∈ path.inits, disk.isFree front = true then
    some {
      at? := fun other => if other <+: path then some .directory else disk.at? other
      root := if_pos (List.nil_prefix)
      closed := by
        intro other name h
        by_cases hLonger : other ++ [name] <+: path
        · exact if_pos ((List.prefix_append _ _).trans hLonger)
        · rw [if_neg hLonger] at h
          split
          · rfl
          · exact disk.closed other name h }
  else none

/-- `path.open("xb")` and the writing of the content. -/
def createFile (disk : Disk) (path : List String) (content : Bytes) : Option Disk :=
  if hNew : disk.at? path = none ∧ disk.at? path.dropLast = some .directory then
    some {
      at? := fun other => if other = path then some (.file content) else disk.at? other
      root := by
        have hPath : [] ≠ path := by
          rintro rfl
          rw [disk.root] at hNew
          cases hNew.1
        rw [if_neg hPath, disk.root]
      closed := by
        intro other name h
        have hOther : other ≠ path := by
          rintro rfl
          have hBelow := disk.none_of_front (List.prefix_append other [name]) hNew.1
          rw [if_neg (by simp), hBelow] at h
          exact h rfl
        rw [if_neg hOther]
        by_cases hSame : other ++ [name] = path
        · have hParent := hNew.2
          rwa [← hSame, List.dropLast_concat] at hParent
        · rw [if_neg hSame] at h
          exact disk.closed other name h }
  else none

section
variable {disk next : Disk} {path : List String}

theorem makeDirectories_eq_some (h : disk.makeDirectories path = some next) :
    (∀ front, front <+: path → disk.isFree front = true) ∧
      ∀ other, next.at? other = if other <+: path then some .directory else disk.at? other := by
  unfold makeDirectories at h
  split at h
  · next hFree =>
      obtain rfl := Option.some.inj h
      exact ⟨fun front hFront => hFree front ((List.mem_inits _ _).mpr hFront), fun _ => rfl⟩
  · cases h

theorem exists_makeDirectories (h : ∀ front, front <+: path → disk.isFree front = true) :
    ∃ next, disk.makeDirectories path = some next :=
  ⟨_, if_pos fun front hFront => h front ((List.mem_inits _ _).mp hFront)⟩

/-- Making directories leaves the files as they are. -/
theorem file_makeDirectories (h : disk.makeDirectories path = some next) {other : List String} {content : Bytes} :
    next.at? other = some (.file content) ↔ disk.at? other = some (.file content) := by
  obtain ⟨hFree, hNext⟩ := makeDirectories_eq_some h
  rw [hNext]
  split
  · next hPrefix =>
      have hOther := hFree other hPrefix
      constructor
      · rintro ⟨⟩
      · intro hFile
        simp [isFree, hFile] at hOther
  · exact .rfl

/-- Directories that are there are made by doing nothing. -/
theorem makeDirectories_of_directory (h : disk.at? path = some .directory) :
    ∃ next, disk.makeDirectories path = some next ∧ next.at? = disk.at? := by
  have hThere : ∀ front, front <+: path → disk.at? front = some .directory := fun front hFront =>
    disk.directory_of_front hFront h
  have hFree : ∀ front ∈ path.inits, disk.isFree front = true := by
    intro front hFront
    rw [isFree, hThere front ((List.mem_inits _ _).mp hFront)]
  refine ⟨_, if_pos hFree, ?_⟩
  funext other
  show (if other <+: path then some Node.directory else disk.at? other) = disk.at? other
  split
  · next hPrefix => rw [hThere other hPrefix]
  · rfl

theorem exists_createFile (content : Bytes) (h : disk.at? path = none ∧ disk.at? path.dropLast = some .directory) :
    ∃ next, disk.createFile path content = some next :=
  ⟨_, dif_pos h⟩

theorem createFile_eq_some {content : Bytes} (h : disk.createFile path content = some next) :
    disk.at? path = none ∧ ∀ other, next.at? other = if other = path then some (.file content) else disk.at? other := by
  unfold createFile at h
  split at h
  · next hNew =>
      obtain rfl := Option.some.inj h
      exact ⟨hNew.1, fun _ => rfl⟩
  · cases h

end

end Disk
