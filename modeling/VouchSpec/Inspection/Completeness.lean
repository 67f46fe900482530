import VouchSpec.Library.Sorting
import VouchSpec.Inspection.Inventory
import VouchSpec.Inspection.Sample

/-! A snapshot of a directory that does not change: it is refused exactly when a limit
or a rule is broken, and otherwise holds every file once. -/

namespace VouchSpec

namespace Inspection

/-- A directory within the limits, whose paths keep the rules and do not collide. -/
structure Fits (u : Unicode) (limits : ScanLimits) (rootName : String) (tree : Entry) : Prop where
  rootName : PathRules u limits rootName ∧ rootName.toList.length ≤ 255
  entries : (tree.contents "" 0).length ≤ limits.maxEntries
  directories : ((tree.contents "" 0).filter Item.isListed).length + 1 ≤ limits.maxDirectories
  depth : ∀ item ∈ tree.contents "" 0, item.isListed = true → item.depth + 1 ≤ limits.maxDepth
  paths : ∀ item ∈ tree.contents "" 0, PathRules u limits item.relative
  collisions : ((tree.contents "" 0).map fun item => u.casefold item.relative).Nodup
  files : tree.regularFiles.length ≤ limits.maxFiles
  fileBytes : ∀ file ∈ tree.regularFiles, file.2.length ≤ limits.maxFileBytes
  skillBytes : ∀ file ∈ tree.regularFiles, file.1 = "SKILL.md" → file.2.length ≤ limits.maxSkillMdBytes
  totalBytes : totalOf tree.regularFiles ≤ limits.maxTotalBytes

/-- A snapshot that holds the regular files of a tree, each once, in the order of their
paths, and the directories that were left out. -/
structure Captures (p : Platform) (tree : Entry) (snapshot : Snapshot) : Prop where
  files : (snapshot.files.map fun file => (file.path, file.content)).Perm tree.regularFiles
  order : snapshot.files.Pairwise fun first second =>
    Bytes.utf8 first.path.toList < Bytes.utf8 second.path.toList
  sizes : ∀ file ∈ snapshot.files, file = fileData p file.path file.content
  excluded : snapshot.excludedPaths.Perm (tree.excludedDirectories.map fun path => path ++ "/")
  totalBytes : snapshot.totalBytes = totalOf tree.regularFiles

section
variable {p : Platform} {u : Unicode} {limits : ScanLimits}

/-- What the walk over a tree passes. -/
theorem passes_iff {entries : List (String × Entry)} {visits : List Visit}
    (lists : Lists visits ((Entry.directory entries).contents "" 0)
      (0 :: listedDepths ((Entry.directory entries).contents "" 0)))
    (hPlain : ∀ item ∈ (Entry.directory entries).contents "" 0, item.entry.IsPlain) (rootName : String) :
    (PathRules u limits rootName ∧ rootName.toList.length ≤ 255) ∧
        Passes p u limits {} (itemsOf visits) (listingsOf visits) ↔
      Fits u limits rootName (.directory entries) := by
  have hItems : ∀ seen, seen ∈ itemsOf visits ↔ ∃ item ∈ (Entry.directory entries).contents "" 0, item.seen = seen := by
    intro seen
    rw [lists.items.mem_iff, List.mem_map]
  have hFiles : ((itemsOf visits).filterMap fileOf).Perm (Entry.directory entries).regularFiles := by
    rw [Entry.regularFiles, ← filterMap_file]
    exact lists.items.filterMap fileOf
  have hTotal : totalOf ((itemsOf visits).filterMap fileOf) = totalOf (Entry.directory entries).regularFiles :=
    (hFiles.map _).sum_eq
  have hFolded : ((itemsOf visits).map fun seen => u.casefold seen.1).Perm
      (((Entry.directory entries).contents "" 0).map fun item => u.casefold item.relative) := by
    refine (lists.items.map fun seen => u.casefold seen.1).trans ?_
    rw [List.map_map]
    exact .refl _
  have hDirectories : (listingsOf visits).length =
      (((Entry.directory entries).contents "" 0).filter Item.isListed).length + 1 := by
    have hLength := lists.depths.length_eq
    rw [List.length_map, List.length_cons, listedDepths, List.length_map] at hLength
    exact hLength
  have hFile : ∀ file, file ∈ (Entry.directory entries).regularFiles ↔
      ∃ item ∈ (Entry.directory entries).contents "" 0, fileOf item.seen = some file := by
    intro file
    rw [Entry.regularFiles, List.mem_filterMap]
    rfl
  constructor
  · rintro ⟨hRoot, passes⟩
    have hAllowed : ∀ item ∈ (Entry.directory entries).contents "" 0, Allowed u limits item.seen := fun item hItem =>
      passes.allowed _ ((hItems _).mpr ⟨item, hItem, rfl⟩)
    obtain ⟨hEntries, hCount, hFileCount, hBytes⟩ := passes.bounded
    simp only [Capture.after, List.nil_append, Nat.zero_add, List.length_map, lists.entryCount, hDirectories,
      hFiles.length_eq, hTotal] at hEntries hCount hFileCount hBytes
    refine ⟨hRoot, hEntries, hCount, ?_, fun item hItem => (hAllowed item hItem).path,
      hFolded.nodup_iff.mp passes.distinct, hFileCount, ?_, ?_, hBytes⟩
    · intro item hItem hListed
      refine passes.depths _ (lists.depths.mem_iff.mpr (List.mem_cons_of_mem _ ?_))
      exact List.mem_map_of_mem (List.mem_filter.mpr ⟨hItem, hListed⟩)
    · intro file hMember
      obtain ⟨item, hItem, hOf⟩ := (hFile file).mp hMember
      exact (hAllowed item hItem).bytes file hOf
    · intro file hMember
      obtain ⟨item, hItem, hOf⟩ := (hFile file).mp hMember
      exact (hAllowed item hItem).skill file hOf
  · intro fits
    refine ⟨fits.rootName, ?_, ?_, by simp, hFolded.nodup_iff.mpr fits.collisions, ?_⟩
    · intro depth hDepth
      rcases List.mem_cons.mp (lists.depths.mem_iff.mp hDepth) with rfl | hListed
      · exact Nat.zero_le _
      · obtain ⟨item, hItem, rfl⟩ := List.mem_map.mp hListed
        obtain ⟨hItem, hListed⟩ := List.mem_filter.mp hItem
        exact fits.depth item hItem hListed
    · intro seen hSeen
      obtain ⟨item, hItem, rfl⟩ := (hItems seen).mp hSeen
      exact ⟨hPlain item hItem, fits.paths item hItem,
        fun file hOf => fits.fileBytes file ((hFile file).mpr ⟨item, hItem, hOf⟩),
        fun file hOf => fits.skillBytes file ((hFile file).mpr ⟨item, hItem, hOf⟩)⟩
    · constructor <;> simp only [Capture.after, List.nil_append, Nat.zero_add, List.length_map, lists.entryCount,
        hDirectories, hFiles.length_eq, hTotal]
      · exact fits.entries
      · exact fits.directories
      · exact fits.files
      · exact fits.totalBytes

/-- When a directory is captured, and what its snapshot holds. -/
theorem collectSnapshot_eq_ok_iff {root : List String} {entries : List (String × Entry)} {times : CaptureTimes}
    {snapshot : Snapshot} : collectSnapshot u limits p root (some (.directory entries)) times = .ok snapshot ↔
      (PathRules u limits (root.getLast?.getD "") ∧ (root.getLast?.getD "").toList.length ≤ 255) ∧
        ∃ capture, (((Entry.directory entries).inOrder u).visits "" 0).foldlM (Capture.visit u limits p) {} = .ok capture ∧
          snapshot = {
            root
            files := capture.files.sortBy fun file => Bytes.utf8 file.path.toList
            totalBytes := capture.totalBytes
            directorySha256 := (p.sha256 (directoryBytes
              (capture.files.sortBy fun file => Bytes.utf8 file.path.toList))).hexdigest
            excludedPaths := capture.excluded.insertionSort fun first second => first ≤ second
            times } := by
  simp only [collectSnapshot, Except.bind_eq_ok_iff, require_eq_ok, exists_const, Except.pure_eq_ok_iff]
  constructor
  · rintro ⟨tree, hTree, -, -, ⟨⟩, hRoot, hLength, capture, hCapture, rfl⟩
    obtain rfl : Entry.directory entries = tree := Except.ok.inj hTree
    exact ⟨⟨validateRelativePath_ok_iff.mp hRoot, hLength⟩, capture, hCapture, rfl⟩
  · rintro ⟨⟨rules, hLength⟩, capture, hCapture, rfl⟩
    exact ⟨_, rfl, by simp, by simp, (), validateRelativePath_ok_iff.mpr rules, hLength, capture, hCapture, rfl⟩

theorem captures_of_walk {entries : List (String × Entry)} {visits : List Visit}
    (lists : Lists visits ((Entry.directory entries).contents "" 0)
      (0 :: listedDepths ((Entry.directory entries).contents "" 0)))
    {capture : Capture} (h : visits.foldlM (Capture.visit u limits p) {} = .ok capture) :
    (capture.files.map fun file => (file.path, file.content)).Perm (Entry.directory entries).regularFiles ∧
      (capture.files.map FileData.path).Nodup ∧ (∀ file ∈ capture.files, file = fileData p file.path file.content) ∧
      capture.excluded.Perm ((Entry.directory entries).excludedDirectories.map fun path => path ++ "/") ∧
      capture.totalBytes = totalOf (Entry.directory entries).regularFiles := by
  have hFiles : ((itemsOf visits).filterMap fileOf).Perm (Entry.directory entries).regularFiles := by
    rw [Entry.regularFiles, ← filterMap_file]
    exact lists.items.filterMap fileOf
  have sound := Capture.sound_empty.walk h
  obtain ⟨-, rfl⟩ := (walk_eq_ok_iff ⟨by simp, by simp, by simp, by simp⟩).mp h
  refine ⟨?_, ?_, ?_, ?_, ?_⟩
  · have hSame : (fun file : FileData => (file.path, file.content)) ∘
        (fun file : String × Bytes => fileData p file.1 file.2) = id := by
      funext file
      rfl
    simp only [Capture.after, List.nil_append, List.map_map, hSame, List.map_id]
    exact hFiles
  · exact List.Nodup.of_map u.casefold (by rw [List.map_map]; exact sound.distinct)
  · intro file hFile
    obtain ⟨found, -, rfl⟩ := List.mem_map.mp hFile
    rfl
  · rw [Entry.excludedDirectories, ← filterMap_excluded]
    exact (lists.items.filterMap excludedOf).map _
  · simp only [Capture.after, Nat.zero_add]
    exact (hFiles.map _).sum_eq

/-- A directory that fits is captured. -/
theorem collected_iff_fits {root : List String} {entries : List (String × Entry)} {times : CaptureTimes}
    (hPlain : ∀ item ∈ (Entry.directory entries).contents "" 0, item.entry.IsPlain) :
    (∃ snapshot, collectSnapshot u limits p root (some (.directory entries)) times = .ok snapshot) ↔
      Fits u limits (root.getLast?.getD "") (.directory entries) := by
  have hEmpty : Capture.Bounded limits {} := ⟨by simp, by simp, by simp, by simp⟩
  rw [← passes_iff (lists_tree u entries) hPlain]
  simp only [collectSnapshot_eq_ok_iff, walk_eq_ok_iff hEmpty]
  constructor
  · rintro ⟨_, hRoot, _, ⟨passes, -⟩, -⟩
    exact ⟨hRoot, passes⟩
  · rintro ⟨hRoot, passes⟩
    exact ⟨_, hRoot, _, ⟨passes, rfl⟩, rfl⟩

/-- A snapshot holds what is in the directory. -/
theorem captures_of_collectSnapshot {root : List String} {entries : List (String × Entry)} {times : CaptureTimes}
    {snapshot : Snapshot} (h : collectSnapshot u limits p root (some (.directory entries)) times = .ok snapshot) :
    Captures p (.directory entries) snapshot := by
  obtain ⟨-, capture, hWalk, rfl⟩ := collectSnapshot_eq_ok_iff.mp h
  obtain ⟨hFiles, hPaths, hData, hExcluded, hTotal⟩ := captures_of_walk (lists_tree u entries) hWalk
  have hPerm := List.perm_sortBy (fun file : FileData => Bytes.utf8 file.path.toList) capture.files
  refine ⟨(hPerm.map _).trans hFiles, ?_, fun file hFile => hData file (hPerm.mem_iff.mp hFile),
    (List.perm_insertionSort _ _).trans hExcluded, hTotal⟩
  have hKeys : ((capture.files.sortBy fun file => Bytes.utf8 file.path.toList).map
      fun file => Bytes.utf8 file.path.toList).Nodup := by
    have hNodup := (hPerm.map FileData.path).nodup_iff.mpr hPaths
    have hInjective : Function.Injective fun path : String => Bytes.utf8 path.toList := fun _ _ hSame =>
      String.toList_injective (Bytes.utf8_injective hSame)
    have hMapped := hNodup.map hInjective
    rwa [List.map_map] at hMapped
  refine (List.pairwise_ne_of_nodup _ (List.pairwise_sortBy _ _) hKeys).imp ?_
  rintro first second ⟨hLe, hNe⟩
  exact Std.lt_of_le_of_ne hLe hNe

/-- A directory that does not change is refused exactly when it breaks a limit or a rule,
and otherwise all of its files are in the snapshot. -/
theorem snapshot_complete (p : Platform) (u : Unicode) (limits : ScanLimits) (root : List String) (look : Look)
    (times : CaptureTimes) (entries : List (String × Entry)) (hTree : look.tree = some (.directory entries))
    (hPlain : ∀ item ∈ (Entry.directory entries).contents "" 0, item.entry.IsPlain) :
    ((∃ raised, collectTwice u limits p root look look times = .error raised) ↔
      ¬ Fits u limits (root.getLast?.getD "") (.directory entries)) ∧
    ∀ snapshot, collectTwice u limits p root look look times = .ok snapshot →
      Captures p (.directory entries) snapshot := by
  rw [collectTwice_static, hTree, ← @collected_iff_fits p u limits root entries times hPlain]
  constructor
  · cases collectSnapshot u limits p root (some (.directory entries)) times with
    | ok snapshot => simp
    | error raised => simp
  · exact fun snapshot h => captures_of_collectSnapshot h

end

/-- A directory with one file is captured. -/
theorem snapshot_complete_demo : ∃ snapshot,
    collectTwice Sample.libraries.toUnicode Sample.limits Platform.standard Sample.root
      ⟨some (Sample.treeOf Sample.skillText), fun _ => ⟨0, 0, 0, 0, 0, 1⟩⟩
      ⟨some (Sample.treeOf Sample.skillText), fun _ => ⟨0, 0, 0, 0, 0, 1⟩⟩ ⟨"", "", ""⟩ = .ok snapshot ∧
    Captures Platform.standard (Sample.treeOf Sample.skillText) snapshot := by
  have hComplete := snapshot_complete Platform.standard Sample.libraries.toUnicode Sample.limits Sample.root
    ⟨some (Sample.treeOf Sample.skillText), fun _ => ⟨0, 0, 0, 0, 0, 1⟩⟩ ⟨"", "", ""⟩ _ rfl
    (fun item hItem => by rw [List.mem_singleton.mp hItem]; exact rfl)
  have hCollected := Sample.collect_sample Platform.standard ⟨"", "", ""⟩
  rw [← collectTwice_static Sample.root ⟨some (Sample.treeOf Sample.skillText), fun _ => ⟨0, 0, 0, 0, 0, 1⟩⟩]
    at hCollected
  exact ⟨_, hCollected, hComplete.2 _ hCollected⟩

end Inspection

end VouchSpec
