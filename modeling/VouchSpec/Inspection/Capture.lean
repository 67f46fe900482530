import VouchSpec.Inspection.Snapshot

/-! What holds of every capture: one file for each path, every file and every path
within its limits. -/

namespace VouchSpec

namespace Inspection

/-- A path of a tree within the limits. -/
structure GoodPath (limits : ScanLimits) (relative : String) : Prop where
  nonempty : relative ≠ ""
  bytes : (Bytes.utf8 relative.toList).length ≤ limits.maxPathBytes

/-- A file as the capture takes it. -/
structure GoodFile (p : Platform) (limits : ScanLimits) (file : FileData) : Prop where
  path : GoodPath limits file.path
  size : file.size = file.content.length
  bounded : file.size ≤ limits.maxFileBytes
  sha256 : file.sha256 = (p.sha256 file.content).hexdigest

/-- The invariant of a capture. -/
structure Capture.Sound (p : Platform) (u : Unicode) (limits : ScanLimits) (capture : Capture) : Prop where
  files : ∀ file ∈ capture.files, GoodFile p limits file
  listed : ∀ file ∈ capture.files, u.casefold file.path ∈ capture.normalizedPaths
  distinct : (capture.files.map fun file => u.casefold file.path).Nodup
  fileCount : capture.files.length ≤ limits.maxFiles
  totalBytes : capture.totalBytes = (capture.files.map FileData.size).sum
  total : capture.totalBytes ≤ limits.maxTotalBytes
  excluded : ∀ path ∈ capture.excluded, ∃ relative, path = relative ++ "/" ∧ GoodPath limits relative

section
variable {p : Platform} {u : Unicode} {limits : ScanLimits}

theorem validateRelativePath_eq_ok {relative : String} (h : validateRelativePath u limits relative = .ok ()) :
    GoodPath limits relative := by
  simp only [validateRelativePath, Except.bind_eq_ok_iff, require_eq_ok, exists_const] at h
  exact ⟨h.1.1, h.1.2⟩

theorem Capture.sound_empty : Capture.Sound p u limits {} :=
  ⟨by simp, by simp, by simp, by simp, by simp, by simp, by simp⟩

/-- A capture that has only gone past a path. -/
theorem Capture.Sound.pass {capture : Capture} (sound : capture.Sound p u limits) (path : String) :
    Capture.Sound p u limits { capture with normalizedPaths := path :: capture.normalizedPaths } :=
  { sound with listed := fun file hFile => List.mem_cons_of_mem _ (sound.listed file hFile) }

/-- What reading a file adds. -/
theorem readFile_eq_ok {capture after : Capture} {relative : String} {links : Nat} {content : Bytes}
    (h : capture.readFile limits p relative links content = .ok after) :
    capture.files.length < limits.maxFiles ∧ content.length ≤ limits.maxFileBytes ∧
      capture.totalBytes + content.length ≤ limits.maxTotalBytes ∧
      after = { capture with
                totalBytes := capture.totalBytes + content.length
                files := capture.files ++ [fileData p relative content] } := by
  simp only [Capture.readFile, Except.bind_eq_ok_iff, require_eq_ok, exists_const, Except.pure_eq_ok_iff] at h
  obtain ⟨-, hCount, hSize, -, hTotal, rfl⟩ := h
  exact ⟨hCount, hSize, hTotal, rfl⟩

theorem Capture.Sound.readFile {capture after : Capture} (sound : capture.Sound p u limits) {relative : String}
    (hPath : GoodPath limits relative) (hNew : ∀ file ∈ capture.files, u.casefold file.path ≠ u.casefold relative)
    (hListed : u.casefold relative ∈ capture.normalizedPaths) {links : Nat} {content : Bytes}
    (h : capture.readFile limits p relative links content = .ok after) : after.Sound p u limits := by
  obtain ⟨hCount, hSize, hTotal, rfl⟩ := readFile_eq_ok h
  constructor
  · intro file hFile
    rcases List.mem_append.mp hFile with hOld | hLast
    · exact sound.files file hOld
    · obtain rfl := List.mem_singleton.mp hLast
      exact ⟨hPath, rfl, hSize, rfl⟩
  · intro file hFile
    rcases List.mem_append.mp hFile with hOld | hLast
    · exact sound.listed file hOld
    · obtain rfl := List.mem_singleton.mp hLast
      exact hListed
  · rw [List.map_append, List.nodup_append]
    refine ⟨sound.distinct, by simp, ?_⟩
    intro folded hFolded other hOther
    obtain ⟨file, hFile, rfl⟩ := List.mem_map.mp hFolded
    obtain rfl := List.mem_singleton.mp hOther
    exact hNew file hFile
  · rw [List.length_append, List.length_singleton]
    exact hCount
  · rw [List.map_append, List.sum_append, ← sound.totalBytes]
    simp [fileData]
  · exact hTotal
  · exact sound.excluded

theorem Capture.Sound.visit {capture after : Capture} (sound : capture.Sound p u limits) {visit : Visit}
    (h : capture.visit u limits p visit = .ok after) : after.Sound p u limits := by
  cases visit with
  | directory depth entryCount =>
      simp only [Capture.visit, Capture.listDirectory, Except.bind_eq_ok_iff, require_eq_ok, exists_const,
        Except.pure_eq_ok_iff] at h
      obtain ⟨-, -, -, rfl⟩ := h
      exact { sound with }
  | entry relative name entry =>
      simp only [Capture.visit, Except.bind_eq_ok_iff, require_eq_ok, exists_const] at h
      obtain ⟨-, _, hValid, hFresh, h⟩ := h
      have hPath := validateRelativePath_eq_ok hValid
      cases entry with
      | link => simp at h
      | special => simp at h
      | file links content =>
          refine (sound.pass (u.casefold relative)).readFile hPath ?_ List.mem_cons_self h
          intro file hFile hSame
          exact hFresh (hSame ▸ sound.listed file hFile)
      | directory entries =>
          simp only at h
          split at h
          · obtain rfl := Except.pure_eq_ok_iff.mp h
            refine { sound.pass (u.casefold relative) with excluded := ?_ }
            intro path hMember
            rcases List.mem_append.mp hMember with hOld | hLast
            · exact sound.excluded path hOld
            · exact ⟨relative, List.mem_singleton.mp hLast, hPath⟩
          · obtain rfl := Except.pure_eq_ok_iff.mp h
            exact sound.pass (u.casefold relative)

/-- The invariant holds after any walk. -/
theorem Capture.Sound.walk {visits : List Visit} {capture after : Capture} (sound : capture.Sound p u limits)
    (h : visits.foldlM (Capture.visit u limits p) capture = .ok after) : after.Sound p u limits := by
  induction visits generalizing capture with
  | nil =>
      obtain rfl := Except.pure_eq_ok_iff.mp h
      exact sound
  | cons visit rest ih =>
      simp only [List.foldlM_cons, Except.bind_eq_ok_iff] at h
      obtain ⟨next, hNext, hRest⟩ := h
      exact ih (sound.visit hNext) hRest

/-- What is true of an accepted snapshot. -/
structure Snapshot.Accepted (p : Platform) (limits : ScanLimits) (snapshot : Snapshot) : Prop where
  files : ∀ file ∈ snapshot.files, GoodFile p limits file
  paths : (snapshot.files.map FileData.path).Nodup
  fileCount : snapshot.files.length ≤ limits.maxFiles
  totalBytes : snapshot.totalBytes ≤ limits.maxTotalBytes
  excluded : ∀ path ∈ snapshot.excludedPaths, ∃ relative, path = relative ++ "/" ∧ GoodPath limits relative
  directory : snapshot.directorySha256 = (p.sha256 (directoryBytes snapshot.files)).hexdigest
  rootName : snapshot.rootName ≠ "" ∧ snapshot.rootName.toList.length ≤ 255

theorem accepted_of_collectSnapshot {root : List String} {tree : Option Entry} {times : CaptureTimes}
    {snapshot : Snapshot} (h : collectSnapshot u limits p root tree times = .ok snapshot) :
    snapshot.Accepted p limits := by
  simp only [collectSnapshot, Except.bind_eq_ok_iff, require_eq_ok, exists_const, Except.pure_eq_ok_iff] at h
  obtain ⟨tree, -, -, -, _, hRoot, hLength, capture, hCapture, rfl⟩ := h
  have sound := Capture.sound_empty.walk hCapture
  have hPerm := List.perm_insertionSort
    (fun first second : FileData => Bytes.utf8 first.path.toList ≤ Bytes.utf8 second.path.toList) capture.files
  constructor
  · exact fun file hFile => sound.files file (hPerm.mem_iff.mp hFile)
  · refine ((hPerm.map FileData.path).nodup_iff).mpr (List.Nodup.of_map u.casefold ?_)
    rw [List.map_map]
    exact sound.distinct
  · exact hPerm.length_eq ▸ sound.fileCount
  · exact sound.total
  · exact fun path hPath => sound.excluded path ((List.perm_insertionSort _ _).mem_iff.mp hPath)
  · rfl
  · exact ⟨(validateRelativePath_eq_ok hRoot).nonempty, hLength⟩

end

end Inspection

end VouchSpec
