import VouchSpec.Inspection.Walk

/-! The second walk of a capture, which compares the entries with those of the first. -/

namespace VouchSpec

namespace Inspection

/-- `_entry_identity`: what the file system says of an entry. -/
structure Identity where
  device : Nat
  inode : Nat
  format : Nat
  size : Nat
  modified : Nat
  links : Nat
deriving DecidableEq

/-- A directory at one moment: its tree, and the identities of the entries by their paths. -/
structure Look where
  tree : Option Entry
  identity : String → Identity

def Entry.isLink : Entry → Bool
  | .link => true
  | _ => false

def Entry.isDirectory : Entry → Bool
  | .directory _ => true
  | _ => false

/-- What a second walk has come to; `counts` are the counts of `_iter_entries`. -/
structure Inventory where
  counts : Capture := {}
  entries : List (String × Identity) := []

section
variable (u : Unicode) (limits : ScanLimits)

/-- One step of the second walk. -/
def Inventory.visit (identity : String → Identity) (inventory : Inventory) : Visit → Except Raised Inventory
  | .directory depth entryCount => do
      let counts ← inventory.counts.listDirectory limits depth entryCount
      return { inventory with counts }
  | .entry relative _ entry => do
      require (entry.isLink = false)
        (pathRejected ("symbolic links and reparse points are not allowed: " ++ relative))
      validateRelativePath u limits relative
      return { inventory with entries := inventory.entries ++ [(relative, identity relative)] }

/-- Entries in the order of their paths. -/
def inPathOrder (entries : List (String × Identity)) : List (String × Identity) :=
  entries.insertionSort fun first second => Bytes.utf8 first.1.toList ≤ Bytes.utf8 second.1.toList

/-- `_inventory_signature`. -/
def inventorySignature (look : Look) : Except Raised (List (String × Identity)) := do
  let tree ← Except.ofOption (rejected "artifact directory could not be stated" "read_failed") look.tree
  require (tree.isLink = false) (pathRejected "symbolic links and reparse points are not allowed")
  require (tree.isDirectory = true) (rejected "artifact directory changed during capture" "input_changed")
  let inventory ← ((tree.inOrder u).visits "" 0).foldlM (Inventory.visit u limits look.identity) {}
  return inPathOrder inventory.entries

/-- The entries of the first walk. -/
def initialInventory (look : Look) : List (String × Identity) :=
  match look.tree with
  | some tree => (itemsOf ((tree.inOrder u).visits "" 0)).map fun seen => (seen.1, look.identity seen.1)
  | none => []

/-- `collect_snapshot` of a directory that is looked at twice. -/
def collectTwice (p : Platform) (root : List String) (first second : Look) (times : CaptureTimes) :
    Except Raised Snapshot := do
  let snapshot ← collectSnapshot u limits p root first.tree times
  let inventory ← inventorySignature u limits second
  require (inPathOrder (initialInventory u first) = inventory)
    (rejected "artifact entry set changed during capture" "input_changed")
  return snapshot

end

section
variable {p : Platform} {u : Unicode} {limits : ScanLimits} {identity : String → Identity}

/-- What an entry that is captured is, and leaves as it was. -/
theorem visit_entry {capture next : Capture} {relative name : String} {entry : Entry}
    (h : capture.visit u limits p (.entry relative name entry) = .ok next) :
    entry.isLink = false ∧ validateRelativePath u limits relative = .ok () ∧
      next.entryCount = capture.entryCount ∧ next.directoryCount = capture.directoryCount := by
  simp only [Capture.visit, Except.bind_eq_ok_iff, require_eq_ok, exists_const] at h
  obtain ⟨-, ⟨⟩, hValid, -, h⟩ := h
  cases entry with
  | link => cases h
  | special => cases h
  | file links content =>
      obtain ⟨-, -, -, rfl⟩ := readFile_eq_ok h
      exact ⟨rfl, hValid, rfl, rfl⟩
  | directory entries =>
      simp only at h
      split at h
      · rw [← Except.pure_eq_ok_iff.mp h]
        exact ⟨rfl, hValid, rfl, rfl⟩
      · rw [← Except.pure_eq_ok_iff.mp h]
        exact ⟨rfl, hValid, rfl, rfl⟩

/-- The second walk goes through where the first one did, and sees the same entries. -/
theorem inventory_of_walk {visits : List Visit} {capture last : Capture} {inventory : Inventory}
    (hCounts : inventory.counts.entryCount = capture.entryCount ∧
      inventory.counts.directoryCount = capture.directoryCount)
    (h : visits.foldlM (Capture.visit u limits p) capture = .ok last) : ∃ after,
      visits.foldlM (Inventory.visit u limits identity) inventory = .ok after ∧
        after.entries = inventory.entries ++ (itemsOf visits).map fun seen => (seen.1, identity seen.1) := by
  induction visits generalizing capture inventory with
  | nil => exact ⟨inventory, rfl, by simp [itemsOf]⟩
  | cons visit rest ih =>
      simp only [List.foldlM_cons, Except.bind_eq_ok_iff] at h ⊢
      obtain ⟨next, hNext, hRest⟩ := h
      cases visit with
      | directory depth entryCount =>
          simp only [Capture.visit, Capture.listDirectory, Except.bind_eq_ok_iff, require_eq_ok, exists_const,
            Except.pure_eq_ok_iff] at hNext
          obtain ⟨hDepth, hDirectories, hEntries, rfl⟩ := hNext
          rw [← hCounts.2] at hDirectories
          rw [← hCounts.1] at hEntries
          obtain ⟨after, hAfter, hSame⟩ := @ih _ { inventory with
            counts := { inventory.counts with
              entryCount := inventory.counts.entryCount + entryCount
              directoryCount := inventory.counts.directoryCount + 1 } } ⟨congrArg (· + entryCount) hCounts.1,
                congrArg (· + 1) hCounts.2⟩ hRest
          refine ⟨after, ⟨_, ?_, hAfter⟩, hSame⟩
          simp only [Inventory.visit, Capture.listDirectory, require_of hDepth, require_of hDirectories,
            require_of hEntries]
          rfl
      | entry relative name entry =>
          obtain ⟨hLink, hValid, hSame⟩ := visit_entry hNext
          obtain ⟨after, hAfter, hEntries⟩ := @ih next
            { inventory with entries := inventory.entries ++ [(relative, identity relative)] }
            ⟨hCounts.1.trans hSame.1.symm, hCounts.2.trans hSame.2.symm⟩ hRest
          refine ⟨after, ⟨_, ?_, hAfter⟩, ?_⟩
          · simp only [Inventory.visit, require_of hLink, hValid]
            rfl
          · rw [hEntries, itemsOf_entry, List.map_cons, List.append_assoc, List.singleton_append]

/-- On a directory that does not change, the second look is as the first. -/
theorem collectTwice_static (root : List String) (look : Look) (times : CaptureTimes) :
    collectTwice u limits p root look look times = collectSnapshot u limits p root look.tree times := by
  unfold collectTwice
  cases hSnapshot : collectSnapshot u limits p root look.tree times with
  | error raised => rfl
  | ok snapshot =>
      have hTree := hSnapshot
      simp only [collectSnapshot, Except.bind_eq_ok_iff, require_eq_ok, exists_const, Except.pure_eq_ok_iff] at hTree
      obtain ⟨tree, hTree, -, -, -, -, -, capture, hWalk, -⟩ := hTree
      cases hLook : look.tree with
      | none =>
          rw [hLook] at hTree
          cases hTree
      | some found =>
          rw [hLook] at hTree
          obtain rfl : found = tree := Except.ok.inj hTree
          obtain ⟨after, hAfter, hEntries⟩ := @inventory_of_walk p u limits look.identity _ {} _ {} ⟨rfl, rfl⟩ hWalk
          have hDirectory : found.isLink = false ∧ found.isDirectory = true := by
            rw [hLook] at hSnapshot
            cases found with
            | directory entries => exact ⟨rfl, rfl⟩
            | _ => cases hSnapshot
          have hInventory : inventorySignature u limits look = .ok (inPathOrder (initialInventory u look)) := by
            simp only [inventorySignature, Except.bind_eq_ok_iff, require_eq_ok, exists_const, Except.pure_eq_ok_iff,
              initialInventory, hLook]
            refine ⟨found, rfl, hDirectory.1, hDirectory.2, after, hAfter, ?_⟩
            rw [hEntries, List.nil_append]
          simp only [Except.bind_eq_ok_iff, require_eq_ok, exists_const, Except.pure_eq_ok_iff]
          exact ⟨snapshot, rfl, _, hInventory, rfl, rfl⟩

end

end Inspection

end VouchSpec
