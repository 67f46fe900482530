import Mathlib.Data.List.Perm.Basic
import VouchSpec.Inspection.Snapshot

/-! What lies in a directory tree, apart from the order in which it is walked: its
entries outside of the directories of version control. -/

namespace VouchSpec

namespace Inspection

/-- An entry without what is in it. -/
def Entry.shallow : Entry → Entry
  | .directory _ => .directory []
  | entry => entry

/-- A directory whose entries are looked at. -/
def Entry.isListed (name : String) : Entry → Bool
  | .directory _ => !isExcluded name
  | _ => false

/-- An entry with its path, its name and the depth of its directory. -/
structure Item where
  relative : String
  name : String
  depth : Nat
  entry : Entry

def Item.isListed (item : Item) : Bool := item.entry.isListed item.name

/-- The path and the bytes of a regular file. -/
def Item.file? (item : Item) : Option (String × Bytes) :=
  match item.entry with
  | .file _ content => some (item.relative, content)
  | _ => none

/-- The path of a directory that is left out. -/
def Item.excluded? (item : Item) : Option String :=
  match item.entry with
  | .directory _ => if isExcluded item.name = true then some item.relative else none
  | _ => none

mutual
/-- All entries below a directory, but for those below a directory of version control. -/
def Entry.contents (path : String) (depth : Nat) : Entry → List Item
  | .directory entries => contentsOf path depth entries
  | _ => []

def contentsOf (path : String) (depth : Nat) : List (String × Entry) → List Item
  | [] => []
  | (name, entry) :: rest =>
      ⟨childPath path name, name, depth, entry.shallow⟩ ::
        ((if isExcluded name = true then [] else entry.contents (childPath path name) (depth + 1)) ++
          contentsOf path depth rest)
end

/-- The regular files of a tree. -/
def Entry.regularFiles (tree : Entry) : List (String × Bytes) := (tree.contents "" 0).filterMap Item.file?

/-- The directories of version control in a tree, but for those below another one. -/
def Entry.excludedDirectories (tree : Entry) : List String := (tree.contents "" 0).filterMap Item.excluded?

/-- What an entry of a directory adds to its contents. -/
def childContents (path : String) (depth : Nat) (child : String × Entry) : List Item :=
  ⟨childPath path child.1, child.1, depth, child.2.shallow⟩ ::
    if isExcluded child.1 = true then [] else child.2.contents (childPath path child.1) (depth + 1)

theorem contentsOf_eq (path : String) (depth : Nat) (entries : List (String × Entry)) :
    contentsOf path depth entries = entries.flatMap (childContents path depth) := by
  induction entries with
  | nil => rfl
  | cons child rest ih =>
      obtain ⟨name, entry⟩ := child
      rw [List.flatMap_cons, contentsOf, ih]
      rfl

theorem contents_directory (path : String) (depth : Nat) (entries : List (String × Entry)) :
    (Entry.directory entries).contents path depth = entries.flatMap (childContents path depth) := by
  rw [Entry.contents, contentsOf_eq]

section
variable {u : Unicode}

theorem shallow_inOrder (entry : Entry) : (entry.inOrder u).shallow = entry.shallow := by
  cases entry <;> simp [Entry.inOrder, Entry.shallow]

theorem isListed_shallow (name : String) (entry : Entry) : entry.shallow.isListed name = entry.isListed name := by
  cases entry <;> rfl

mutual
/-- The order of the entries does not matter to the contents. -/
theorem contents_inOrder (path : String) (depth : Nat) (entry : Entry) :
    ((entry.inOrder u).contents path depth).Perm (entry.contents path depth) := by
  cases entry with
  | link => exact .refl _
  | special => exact .refl _
  | file links content => exact .refl _
  | directory entries =>
      rw [Entry.inOrder, contents_directory, contents_directory, ← contentsOf_eq path depth entries]
      exact ((List.perm_insertionSort _ _).flatMap_right _).trans (contentsOf_entriesInOrder path depth entries)

theorem contentsOf_entriesInOrder (path : String) (depth : Nat) (entries : List (String × Entry)) :
    ((entriesInOrder u entries).flatMap (childContents path depth)).Perm (contentsOf path depth entries) := by
  cases entries with
  | nil => exact .refl _
  | cons child rest =>
      obtain ⟨name, entry⟩ := child
      rw [entriesInOrder, List.flatMap_cons, contentsOf, childContents, shallow_inOrder, List.cons_append]
      refine .cons _ (.append ?_ (contentsOf_entriesInOrder path depth rest))
      simp only
      split
      · exact .refl _
      · exact contents_inOrder _ _ entry
end

end

/-- The entries that a walk goes over. -/
def Visit.item? : Visit → Option (String × String × Entry)
  | .directory _ _ => none
  | .entry relative name found => some (relative, name, found.shallow)

/-- The directories that a walk lists, with their depth and the count of their entries. -/
def Visit.listing? : Visit → Option (Nat × Nat)
  | .directory depth entryCount => some (depth, entryCount)
  | .entry .. => none

/-- The entries and directories of a walk. -/
def itemsOf (visits : List Visit) : List (String × String × Entry) := visits.filterMap Visit.item?

def listingsOf (visits : List Visit) : List (Nat × Nat) := visits.filterMap Visit.listing?

@[simp] theorem itemsOf_directory (depth entryCount : Nat) (visits : List Visit) :
    itemsOf (.directory depth entryCount :: visits) = itemsOf visits := rfl

@[simp] theorem itemsOf_entry (relative name : String) (entry : Entry) (visits : List Visit) :
    itemsOf (.entry relative name entry :: visits) = (relative, name, entry.shallow) :: itemsOf visits := rfl

@[simp] theorem itemsOf_append (first second : List Visit) :
    itemsOf (first ++ second) = itemsOf first ++ itemsOf second := List.filterMap_append

@[simp] theorem listingsOf_directory (depth entryCount : Nat) (visits : List Visit) :
    listingsOf (.directory depth entryCount :: visits) = (depth, entryCount) :: listingsOf visits := rfl

@[simp] theorem listingsOf_entry (relative name : String) (entry : Entry) (visits : List Visit) :
    listingsOf (.entry relative name entry :: visits) = listingsOf visits := rfl

@[simp] theorem listingsOf_append (first second : List Visit) :
    listingsOf (first ++ second) = listingsOf first ++ listingsOf second := List.filterMap_append

def Item.seen (item : Item) : String × String × Entry := (item.relative, item.name, item.entry)

/-- The depths of the directories among the items. -/
def listedDepths (items : List Item) : List Nat :=
  (items.filter Item.isListed).map fun item => item.depth + 1

/-- The items of a child that lie below it. -/
def deeper (path : String) (depth : Nat) (child : String × Entry) : List Item :=
  if isExcluded child.1 = true then [] else child.2.contents (childPath path child.1) (depth + 1)

def childItem (path : String) (depth : Nat) (child : String × Entry) : Item :=
  ⟨childPath path child.1, child.1, depth, child.2.shallow⟩

/-- What a walk comes to: entries, listed directories by their depth, and their entry counts. -/
structure Lists (visits : List Visit) (entries : List Item) (depths : List Nat) : Prop where
  items : (itemsOf visits).Perm (entries.map Item.seen)
  depths : ((listingsOf visits).map Prod.fst).Perm depths
  entryCount : ((listingsOf visits).map Prod.snd).sum = entries.length

theorem Lists.nil : Lists [] [] [] := ⟨.refl _, .refl _, rfl⟩

theorem Lists.append {first second : List Visit} {entries others : List Item} {depths more : List Nat}
    (lists : Lists first entries depths) (next : Lists second others more) :
    Lists (first ++ second) (entries ++ others) (depths ++ more) := by
  constructor
  · rw [itemsOf_append, List.map_append]
    exact lists.items.append next.items
  · rw [listingsOf_append, List.map_append]
    exact lists.depths.append next.depths
  · rw [listingsOf_append, List.map_append, List.sum_append, List.length_append, lists.entryCount, next.entryCount]

theorem Lists.perm {visits : List Visit} {entries others : List Item} {depths more : List Nat}
    (lists : Lists visits entries depths) (hEntries : entries.Perm others) (hDepths : depths.Perm more) :
    Lists visits others more :=
  ⟨lists.items.trans (hEntries.map _), lists.depths.trans hDepths, lists.entryCount.trans hEntries.length_eq⟩

/-- The entries of a directory, which list nothing. -/
theorem itemsOf_entries (path : String) (depth : Nat) (entries : List (String × Entry)) :
    itemsOf (entries.map fun child => Visit.entry (childPath path child.1) child.1 child.2) =
        (entries.map (childItem path depth)).map Item.seen ∧
      listingsOf (entries.map fun child => Visit.entry (childPath path child.1) child.1 child.2) = [] := by
  induction entries with
  | nil => exact ⟨rfl, rfl⟩
  | cons child rest ih =>
      obtain ⟨hItems, hNone⟩ := ih
      simp only [List.map_cons, itemsOf_entry, listingsOf_entry, hItems, hNone]
      exact ⟨rfl, trivial⟩

/-- A directory is listed before its entries and what lies below them. -/
theorem Lists.directory {path : String} {depth : Nat} {entries : List (String × Entry)} {visits : List Visit}
    {depths : List Nat} (lists : Lists visits (entries.flatMap (deeper path depth)) depths) :
    Lists (.directory depth entries.length ::
        (entries.map (fun child => Visit.entry (childPath path child.1) child.1 child.2) ++ visits))
      ((Entry.directory entries).contents path depth) (depth :: depths) := by
  obtain ⟨hItems, hNone⟩ := itemsOf_entries path depth entries
  have hContents : (entries.map (childItem path depth) ++ entries.flatMap (deeper path depth)).Perm
      ((Entry.directory entries).contents path depth) := by
    rw [contents_directory]
    exact List.map_append_flatMap_perm _ _ _
  constructor
  · rw [itemsOf_directory, itemsOf_append, hItems]
    refine .trans ?_ (hContents.map Item.seen)
    rw [List.map_append]
    exact lists.items.append_left _
  · rw [listingsOf_directory, listingsOf_append, hNone]
    exact lists.depths.cons _
  · rw [listingsOf_directory, listingsOf_append, hNone, List.nil_append, List.map_cons, List.sum_cons,
      lists.entryCount, ← hContents.length_eq, List.length_append, List.length_map]

/-- The depth at which a child is listed, if it is. -/
def childDepth (depth : Nat) (child : String × Entry) : List Nat :=
  if child.2.isListed child.1 = true then [depth + 1] else []

theorem listedDepths_childContents (path : String) (depth : Nat) (child : String × Entry) :
    listedDepths (childContents path depth child) = childDepth depth child ++ listedDepths (deeper path depth child) := by
  unfold childContents childDepth listedDepths deeper
  rw [List.filter_cons]
  have hHead : Item.isListed ⟨childPath path child.1, child.1, depth, child.2.shallow⟩ = child.2.isListed child.1 :=
    isListed_shallow _ _
  rw [hHead]
  split <;> simp

mutual
/-- The walk over an entry goes over its contents. -/
theorem lists_visits (path : String) (depth : Nat) (name : String) (entry : Entry) (hName : isExcluded name = false) :
    Lists (entry.visits path (depth + 1)) (entry.contents path (depth + 1))
      (childDepth depth (name, entry) ++ listedDepths (entry.contents path (depth + 1))) := by
  cases entry with
  | link => exact .nil
  | special => exact .nil
  | file links content => exact .nil
  | directory entries =>
      have hListed : childDepth depth (name, .directory entries) = [depth + 1] := by
        simp [childDepth, Entry.isListed, hName]
      rw [hListed, Entry.visits, List.singleton_append]
      have lists := (lists_childVisits path (depth + 1) entries).directory
      rwa [← contents_directory] at lists

theorem lists_childVisits (path : String) (depth : Nat) (entries : List (String × Entry)) :
    Lists (childVisits path depth entries) (entries.flatMap (deeper path depth))
      (listedDepths (entries.flatMap (childContents path depth))) := by
  cases entries with
  | nil => exact .nil
  | cons child rest =>
      obtain ⟨name, entry⟩ := child
      have lists := lists_childVisits path depth rest
      have hDepths : listedDepths (((name, entry) :: rest).flatMap (childContents path depth)) =
          (childDepth depth (name, entry) ++ listedDepths (deeper path depth (name, entry))) ++
            listedDepths (rest.flatMap (childContents path depth)) := by
        rw [List.flatMap_cons, ← listedDepths_childContents]
        simp [listedDepths]
      rw [hDepths, List.flatMap_cons, childVisits]
      refine Lists.append ?_ lists
      cases hName : isExcluded name with
      | true =>
          have hSkipped : childDepth depth (name, entry) = [] := by
            cases entry <;> simp [childDepth, Entry.isListed, hName]
          rw [if_pos rfl, hSkipped, deeper, if_pos hName]
          exact .nil
      | false =>
          rw [if_neg Bool.false_ne_true, deeper, if_neg (by simp [hName])]
          exact lists_visits (childPath path name) depth name entry hName
end

/-- The walk over a tree lists its root, and goes over what is in it in some order. -/
theorem lists_tree (u : Unicode) (entries : List (String × Entry)) :
    Lists (((Entry.directory entries).inOrder u).visits "" 0) ((Entry.directory entries).contents "" 0)
      (0 :: listedDepths ((Entry.directory entries).contents "" 0)) := by
  have hPerm := @contents_inOrder u "" 0 (.directory entries)
  rw [Entry.inOrder] at hPerm ⊢
  rw [Entry.visits]
  have lists := (lists_childVisits "" 0 ((entriesInOrder u entries).insertionSort fun first second =>
    toLex (u.casefold first.1, first.1) ≤ toLex (u.casefold second.1, second.1))).directory
  rw [← contents_directory] at lists
  exact lists.perm hPerm (((hPerm.filter _).map _).cons _)

end Inspection

end VouchSpec
