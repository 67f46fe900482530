import VouchSpec.Inspection.Completeness

/-! The digest of a directory is taken of an encoding that loses nothing of its files. -/

namespace VouchSpec

namespace Inspection

/-- The encoding of one file. -/
def encodedFile (item : FileData) : Bytes :=
  bigEndian (Bytes.utf8 item.path.toList).length ++ Bytes.utf8 item.path.toList ++ bigEndian item.size ++ item.content

/-- A file whose lengths fit eight bytes. -/
structure Encoded (p : Platform) (item : FileData) : Prop where
  data : item = fileData p item.path item.content
  path : (Bytes.utf8 item.path.toList).length < 2 ^ 64
  size : item.content.length < 2 ^ 64

@[simp] theorem bigEndian_length (count : Nat) : (bigEndian count).length = 8 := by
  simp [bigEndian]

/-- Eight bytes hold a count below `2 ^ 64`. -/
theorem bigEndian_inj {first second : Nat} (hFirst : first < 2 ^ 64) (hSecond : second < 2 ^ 64)
    (h : bigEndian first = bigEndian second) : first = second := by
  have hDigit : ∀ index, index < 8 → first / 256 ^ index % 256 = second / 256 ^ index % 256 := by
    intro index hIndex
    have hByte := List.map_inj_left.mp h index (List.mem_reverse.mpr (List.mem_range.mpr hIndex))
    exact congrArg UInt8.toNat hByte
  have h0 := hDigit 0 (by decide)
  have h1 := hDigit 1 (by decide)
  have h2 := hDigit 2 (by decide)
  have h3 := hDigit 3 (by decide)
  have h4 := hDigit 4 (by decide)
  have h5 := hDigit 5 (by decide)
  have h6 := hDigit 6 (by decide)
  have h7 := hDigit 7 (by decide)
  norm_num at h0 h1 h2 h3 h4 h5 h6 h7 hFirst hSecond
  omega

theorem encodedFile_delimited (p : Platform) : List.Delimited (Encoded p) encodedFile := by
  intro first second rest other hFirst hSecond h
  simp only [encodedFile, List.append_assoc] at h
  obtain ⟨hLength, h⟩ := List.append_inj h (by simp)
  have hPathLength := bigEndian_inj hFirst.path hSecond.path hLength
  obtain ⟨hPath, h⟩ := List.append_inj h hPathLength
  obtain ⟨hSize, h⟩ := List.append_inj h (by simp)
  have hSizeFirst : first.size = first.content.length := congrArg FileData.size hFirst.data
  have hSizeSecond : second.size = second.content.length := congrArg FileData.size hSecond.data
  have hContentLength : first.content.length = second.content.length := by
    rw [hSizeFirst, hSizeSecond] at hSize
    exact bigEndian_inj hFirst.size hSecond.size hSize
  obtain ⟨hContent, hRest⟩ := List.append_inj h hContentLength
  refine ⟨?_, hRest⟩
  have hSamePath : first.path = second.path := String.toList_injective (Bytes.utf8_injective hPath)
  rw [hFirst.data, hSecond.data, hSamePath, hContent]

theorem encodedFile_ne_nil (item : FileData) : encodedFile item ≠ [] := by
  intro hNone
  have hLength := congrArg List.length hNone
  simp [encodedFile] at hLength

section
variable {p : Platform} {u : Unicode} {limits : ScanLimits} {root : List String} {tree : Option Entry}
  {times : CaptureTimes} {snapshot : Snapshot}

/-- A snapshot is of a directory. -/
theorem tree_of_collectSnapshot (h : collectSnapshot u limits p root tree times = .ok snapshot) :
    ∃ entries, tree = some (.directory entries) := by
  cases tree with
  | none => cases h
  | some found =>
      cases found with
      | directory entries => exact ⟨entries, rfl⟩
      | _ => cases h

theorem encoded_of_collectSnapshot (h : collectSnapshot u limits p root tree times = .ok snapshot) :
    ∀ item ∈ snapshot.files, Encoded p item := by
  intro item hItem
  have accepted := accepted_of_collectSnapshot h
  have good := accepted.files item hItem
  obtain ⟨entries, rfl⟩ := tree_of_collectSnapshot h
  have hPath : limits.maxPathBytes ≤ 1024 := limits.ceilings.2.2.2.2.1
  have hBytes : limits.maxFileBytes ≤ 2000000 := limits.ceilings.2.2.2.2.2.2.2.2.2.2.1
  have hShort := good.path.bytes
  have hSmall := good.bounded
  rw [good.size] at hSmall
  exact ⟨(captures_of_collectSnapshot h).sizes item hItem, by omega, by omega⟩

/-- The files of a snapshot are read off what its digest is taken of. -/
theorem files_eq_of_directoryBytes {others : ScanLimits} {elsewhere : List String} {more : Option Entry}
    {later : CaptureTimes} {second : Snapshot} (h : collectSnapshot u limits p root tree times = .ok snapshot)
    (hSecond : collectSnapshot u others p elsewhere more later = .ok second)
    (hBytes : directoryBytes snapshot.files = directoryBytes second.files) : snapshot.files = second.files :=
  List.flatMap_inj (encodedFile_delimited p) encodedFile_ne_nil (encoded_of_collectSnapshot h)
    (encoded_of_collectSnapshot hSecond) (List.append_cancel_left hBytes)

end

/-- What the digest of a snapshot is taken of stands for its files: two snapshots give one
byte string exactly when the trees map the same paths to the same bytes. -/
theorem directoryBytes_eq_iff (p : Platform) (u : Unicode) (limits others : ScanLimits) (root elsewhere : List String)
    (entries more : List (String × Entry)) (times later : CaptureTimes) (first second : Snapshot)
    (hFirst : collectSnapshot u limits p root (some (.directory entries)) times = .ok first)
    (hSecond : collectSnapshot u others p elsewhere (some (.directory more)) later = .ok second) :
    first.directorySha256 = (p.sha256 (directoryBytes first.files)).hexdigest ∧
    (directoryBytes first.files = directoryBytes second.files ↔ ∀ path content,
      (path, content) ∈ (Entry.directory entries).regularFiles ↔
        (path, content) ∈ (Entry.directory more).regularFiles) := by
  have captured := captures_of_collectSnapshot hFirst
  have captures := captures_of_collectSnapshot hSecond
  refine ⟨(accepted_of_collectSnapshot hFirst).directory, ?_⟩
  have hBytes : directoryBytes first.files = directoryBytes second.files ↔ first.files = second.files := by
    constructor
    · exact files_eq_of_directoryBytes hFirst hSecond
    · intro h
      rw [h]
  have hMember : ∀ {files : List FileData} {tree : List (String × Bytes)} (path : String) (content : Bytes),
      (files.map fun file => (file.path, file.content)).Perm tree →
      (∀ file ∈ files, file = fileData p file.path file.content) →
      ((path, content) ∈ tree ↔ fileData p path content ∈ files) := by
    intro files tree path content hPerm hData
    rw [← hPerm.mem_iff, List.mem_map]
    constructor
    · rintro ⟨file, hFile, hSame⟩
      obtain ⟨rfl, rfl⟩ := Prod.mk.inj hSame
      rwa [← hData file hFile]
    · intro hFile
      exact ⟨_, hFile, rfl⟩
  rw [hBytes]
  constructor
  · intro hSame path content
    rw [hMember path content captured.files captured.sizes, hMember path content captures.files captures.sizes, hSame]
  · intro hSame
    have hNodup : ∀ {snapshot : Snapshot} {tree : Entry}, Captures p tree snapshot → snapshot.files.Nodup :=
      fun captures => captures.order.imp fun hLess hEq => by
        rw [hEq] at hLess
        exact Std.lt_irrefl hLess
    have hPerm : first.files.Perm second.files := by
      refine (List.perm_ext_iff_of_nodup (hNodup captured) (hNodup captures)).mpr ?_
      intro file
      constructor
      · intro hFile
        have hData := captured.sizes file hFile
        rw [hData] at hFile ⊢
        rw [← hMember _ _ captured.files captured.sizes, hSame] at hFile
        exact (hMember _ _ captures.files captures.sizes).mp hFile
      · intro hFile
        have hData := captures.sizes file hFile
        rw [hData] at hFile ⊢
        rw [← hMember _ _ captures.files captures.sizes, ← hSame] at hFile
        exact (hMember _ _ captured.files captured.sizes).mp hFile
    have hSorted : ∀ {snapshot : Snapshot} {tree : Entry}, Captures p tree snapshot →
        snapshot.files.Pairwise fun left right => Bytes.utf8 left.path.toList ≤ Bytes.utf8 right.path.toList :=
      fun captures => captures.order.imp fun hLess => Std.le_of_lt hLess
    refine List.eq_of_perm_of_keys (fun file : FileData => Bytes.utf8 file.path.toList) hPerm (hSorted captured)
      (hSorted captures) ?_
    intro left hLeft right hRight hKey
    have hPath : left.path = right.path := String.toList_injective (Bytes.utf8_injective hKey)
    exact List.inj_on_of_nodup_map (accepted_of_collectSnapshot hFirst).paths hLeft hRight hPath

theorem directoryBytes_eq_iff_demo : directoryBytes (Sample.snapshotOf Platform.standard ⟨"", "", ""⟩ Sample.skillText).files =
    directoryBytes (Sample.snapshotOf Platform.standard ⟨"a", "b", ""⟩ Sample.skillText).files :=
  (directoryBytes_eq_iff Platform.standard Sample.libraries.toUnicode Sample.limits Sample.limits Sample.root Sample.root
    _ _ _ _ _ _ (Sample.collect_sample Platform.standard ⟨"", "", ""⟩)
    (Sample.collect_sample Platform.standard ⟨"a", "b", ""⟩)).2.mpr fun _ _ => .rfl

end Inspection

end VouchSpec
