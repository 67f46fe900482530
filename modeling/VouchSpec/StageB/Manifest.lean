import VouchSpec.Inspection.Digest
import VouchSpec.StageB.Freeze

/-! The manifest of a frozen source is read back as it was written: its checks pass, and
what it says of the files is what the snapshot said. -/

namespace VouchSpec

namespace StageB

open Inspection Signing

/-- The sources that the parser of requests lets through. -/
structure Source.Valid (source : Source) : Prop where
  owner : Pattern.owner source.owner = true
  repository : Pattern.repository source.repository = true
  commit : Pattern.commit source.commit = true
  skillPath : validateSkillPath (.str source.skillPath) = .ok source.skillPath

/-- A manifest that a freeze has written. -/
structure Written (request : ValidationRequest) (networkPhase : String) (snapshot : Snapshot) (files : List Json) : Prop where
  source : Source.Valid request.source
  phase : networkPhase ∈ networkPhases
  files : List.Forall₂ (fun file item => ∃ metadata : Metadata, IsBlob metadata.gitBlobSha1 metadata.gitMode ∧
    item = fileEntry file metadata) snapshot.files files
  sizes : ∀ file ∈ snapshot.files, file.size < 10 ^ Json.maxDigits
  totalBytes : snapshot.totalBytes < 10 ^ Json.maxDigits
  fileCount : snapshot.files.length < 10 ^ Json.maxDigits

section
variable {t : Toolkit} {request : ValidationRequest} {networkPhase : String} {snapshot : Snapshot} {files : List Json}

/-- The manifest that a freeze writes. -/
def writtenManifest (t : Toolkit) (request : ValidationRequest) (networkPhase : String) (snapshot : Snapshot)
    (files : List Json) : Json :=
  freezeManifest t (manifestMembers t request request.source.commit networkPhase snapshot files)

theorem Written.length (written : Written request networkPhase snapshot files) :
    files.length = snapshot.files.length := written.files.length_eq.symm

theorem fileEntry_plain {file : FileData} {metadata : Metadata} (hSize : file.size < 10 ^ Json.maxDigits) :
    (fileEntry file metadata).Plain 1 := by
  simp [fileEntry, hSize]

theorem Written.plain (written : Written request networkPhase snapshot files) :
    (writtenManifest t request networkPhase snapshot files).Plain 4 := by
  have hFiles : (Json.arr files).Plain 2 := by
    intro item hItem
    obtain ⟨file, hFile, metadata, -, rfl⟩ := written.files.exists_left hItem
    exact fileEntry_plain (written.sizes file hFile)
  have hCount : files.length < 10 ^ Json.maxDigits := written.length ▸ written.fileCount
  simp [writtenManifest, freezeManifest, manifestMembers, Source.toJson, hFiles.mono, hCount, written.totalBytes]

theorem source_sorted (source : Source) : source.toJson.sorted = source.toJson := by
  simp only [Source.toJson, Json.sorted, Json.sortedMembers, List.insertionSort_cons, List.insertionSort_nil,
    List.orderedInsert, String.reduceLE, if_true]

/-- The source of a manifest is parsed as it was written. -/
theorem parse_sourceRequest {manifest : Json} {source : Source} (valid : Source.Valid source)
    (hSource : manifest.member "source" = source.toJson) :
    ∃ parsed, parseFreshValidationRequest (sourceRequest manifest) = .ok parsed ∧ parsed.source = source := by
  refine ⟨⟨source, 4900, "frozen_verify"⟩, parseFreshValidationRequest_eq_ok.mpr ?_, rfl⟩
  refine ⟨source.toJson, .obj [("currency", .str freshValidationCurrency), ("amount_minor", .int 4900)], ?_⟩
  rw [sourceRequest, hSource]
  exact {
    members := by simp [Json.hasExactly]
    schemaVersion := by simp [Json.get?]
    operation := by simp [Json.get?]
    profile := by simp [Json.get?]
    source := by simp [Json.get?]
    sourceMembers := by simp [Json.hasExactly, Source.toJson]
    host := by simp [Json.get?, Source.toJson]
    owner := ⟨by simp [Json.get?, Source.toJson], valid.owner⟩
    repository := ⟨by simp [Json.get?, Source.toJson], valid.repository⟩
    commit := ⟨by simp [Json.get?, Source.toJson], valid.commit⟩
    skillPath := ⟨_, by simp [Json.get?, Source.toJson], valid.skillPath⟩
    maximum := by simp [Json.get?]
    maximumMembers := by simp [Json.hasExactly]
    currency := by simp [Json.get?]
    amount := ⟨by simp [Json.get?], (by decide : 4900 ≤ 1000000)⟩
    deliveryId := ⟨by simp [Json.get?], (by decide : Pattern.deliveryId "frozen_verify" = true)⟩ }

/-- A digest in a manifest has its form. -/
theorem isSha256Reference_hexdigest (digest : Digest) : isSha256Reference ("sha256:" ++ digest.hexdigest) = true := by
  have hStart : ("sha256:" ++ digest.hexdigest).toList = "sha256:".toList ++ digest.hexdigest.toList :=
    String.toList_append
  have hDigits : digest.hexdigest.toList.all Bytes.isHexDigit = true := by
    rw [Digest.hexdigest, String.toList_ofList, List.all_eq_true]
    exact Bytes.hex_isHexDigit digest.bytes
  have hLiteral : "sha256:".toList.isPrefixOf ("sha256:".toList ++ digest.hexdigest.toList) = true :=
    List.isPrefixOf_iff_prefix.mpr (List.prefix_append _ _)
  rw [isSha256Reference, hStart, Pattern.afterPrefix, hLiteral, List.drop_left, Pattern.fullmatch,
    digest.hexdigest_length, hDigits]
  rfl

/-- The digest of a manifest is taken of its members without it, in any order. -/
theorem manifestDigest_sorted (written : Written request networkPhase snapshot files) :
    manifestDigest t.toPlatform (writtenManifest t request networkPhase snapshot files).sorted =
      manifestDigest t.toPlatform
        (.obj (manifestMembers t request request.source.commit networkPhase snapshot files)) := by
  have hMembers : ∀ member ∈ manifestMembers t request request.source.commit networkPhase snapshot files,
      member.1 ∉ ["manifest_digest"] := by
    simp [manifestMembers]
  have hAdded : ∀ member ∈ [("manifest_digest", Json.str ("sha256:" ++ manifestDigest t.toPlatform
      (.obj (manifestMembers t request request.source.commit networkPhase snapshot files))))],
      member.1 ∈ ["manifest_digest"] := by
    simp
  have hWithout := Json.without_append hMembers hAdded
  rw [manifestDigest, deterministicJson, Json.without_sorted _ (written.plain (t := t)), writtenManifest, freezeManifest,
    hWithout, ← deterministicJson, manifestDigest, Json.without_nil _ hMembers]

/-- The checks of a manifest pass on one that was written. -/
theorem checkManifest_written (written : Written request networkPhase snapshot files) :
    checkManifest t (writtenManifest t request networkPhase snapshot files).sorted = .ok request.source := by
  have hMember := Json.member_sorted (written.plain (t := t))
  have hSource : (writtenManifest t request networkPhase snapshot files).sorted.member "source" =
      request.source.toJson := by
    rw [hMember, writtenManifest, freezeManifest, manifestMembers]
    simp [Json.member, Json.get?, source_sorted]
  obtain ⟨parsed, hParsed, hSame⟩ := parse_sourceRequest written.source hSource
  have hDigest := manifestDigest_sorted (t := t) written
  have hReference := isSha256Reference_hexdigest (t.sha256 (deterministicJson (Json.without ["manifest_digest"]
    (.obj (manifestMembers t request request.source.commit networkPhase snapshot files)))))
  simp only [checkManifest, Except.bind_eq_ok_iff, require_eq_ok, exists_const, Except.pure_eq_ok_iff]
  refine ⟨?_, ?_, ?_, ?_, parsed, hParsed, ?_, hSame⟩
  · rw [Json.hasExactly_sorted]
    simp [writtenManifest, freezeManifest, manifestMembers, manifestFields, Json.hasExactly]
  · rw [hMember, hMember]
    simp [writtenManifest, freezeManifest, manifestMembers, Json.member, Json.get?]
  · rw [hMember]
    simp [writtenManifest, freezeManifest, manifestMembers, Json.member, Json.get?, Json.sorted, isHashable]
  · rw [hDigest]
    simp only [hMember]
    simp [writtenManifest, freezeManifest, manifestMembers, Json.member, Json.get?, written.phase, Json.str?]
    exact hReference
  · rw [hSame, hSource, source_sorted]
    simp only [hMember]
    simp [writtenManifest, freezeManifest, manifestMembers, Json.member, Json.get?]

/-- A file of a manifest that was written passes its checks. -/
theorem checkFileEntry_fileEntry {file : FileData} {metadata : Metadata} (hSize : file.size < 10 ^ Json.maxDigits)
    (hBlob : IsBlob metadata.gitBlobSha1 metadata.gitMode) :
    checkFileEntry (fileEntry file metadata).sorted = .ok () ∧ matchesFile (fileEntry file metadata).sorted file = true := by
  have hMember := Json.member_sorted (@fileEntry_plain file metadata hSize)
  have hCommit : Pattern.commit metadata.gitBlobSha1 = true := by
    rw [Pattern.commit, Pattern.fullmatch, hBlob.1.1, List.all_eq_true.mpr hBlob.1.2]
    rfl
  constructor
  · simp only [checkFileEntry, Except.bind_eq_ok_iff, require_eq_ok, exists_const]
    refine ⟨⟨?_, ?_⟩, ?_, ?_⟩
    · rw [Json.hasExactly_sorted]
      simp [fileEntry, Json.hasExactly]
    · rw [hMember, Json.str?_sorted]
      simp [fileEntry, Json.member, Json.get?, Json.str?, hCommit]
    · rw [hMember]
      simp [fileEntry, Json.member, Json.get?, Json.sorted, isHashable]
    · rw [hMember]
      simpa [fileEntry, Json.member, Json.get?] using hBlob.2
  · simp only [matchesFile, hMember]
    simp [fileEntry, Json.member, Json.get?, Json.sorted, equalsCount]

/-- The inventory of a manifest is that of the snapshot it was written from. -/
theorem checkInventory_written (written : Written request networkPhase snapshot files) {later : Snapshot}
    (hFiles : later.files = snapshot.files) (hTotal : later.totalBytes = snapshot.totalBytes)
    (hDirectory : later.directorySha256 = snapshot.directorySha256) :
    checkInventory (writtenManifest t request networkPhase snapshot files).sorted later = .ok () := by
  have hMember := Json.member_sorted (written.plain (t := t))
  have hEach : List.Forall₂ (fun item file => checkFileEntry item = .ok () ∧ matchesFile item file = true)
      (files.map Json.sorted) snapshot.files := by
    rw [List.forall₂_map_left_iff]
    refine (List.forall₂_and_left _ _ |>.mpr ⟨written.sizes, written.files⟩).flip.imp ?_
    rintro item file ⟨hSize, metadata, hBlob, rfl⟩
    exact checkFileEntry_fileEntry hSize hBlob
  have hItems : items? ((writtenManifest t request networkPhase snapshot files).sorted.member "files") =
      some (files.map Json.sorted) := by
    rw [hMember, writtenManifest, freezeManifest, manifestMembers]
    simp [Json.member, Json.get?, Json.sorted, Json.sortedItems_eq_map, items?]
  simp only [checkInventory, hItems, Except.bind_eq_ok_iff, require_eq_ok, exists_const, Except.ofOption_eq_ok_iff]
  refine ⟨_, rfl, (), ?_, ⟨?_, ?_⟩, ?_⟩
  · rw [Except.forM_eq_ok_iff]
    intro item hItem
    obtain ⟨file, -, hGood⟩ := hEach.flip.exists_left hItem
    exact hGood.1
  · rw [hFiles, hEach.length_eq]
  · intro pair hPair
    rw [hFiles] at hPair
    exact (List.forall₂_zip hEach hPair).2
  · rw [hFiles, hTotal, hDirectory]
    simp only [hMember]
    simp [writtenManifest, freezeManifest, manifestMembers, Json.member, Json.get?, Json.sorted, equalsCount,
      written.length]

/-- A snapshot that a manifest is accepted for has its digest. -/
theorem directory_of_checkInventory (written : Written request networkPhase snapshot files) {later : Snapshot}
    (h : checkInventory (writtenManifest t request networkPhase snapshot files).sorted later = .ok ()) :
    later.directorySha256 = snapshot.directorySha256 := by
  simp only [checkInventory, Except.bind_eq_ok_iff, require_eq_ok, exists_const] at h
  obtain ⟨items, -, ⟨⟩, -, -, -, -, hDirectory⟩ := h
  rw [Json.member_sorted written.plain] at hDirectory
  have hSame : snapshot.directorySha256 = later.directorySha256 := by
    simpa [writtenManifest, freezeManifest, manifestMembers, Json.member, Json.get?] using hDirectory
  exact hSame.symm

end

end StageB

end VouchSpec
