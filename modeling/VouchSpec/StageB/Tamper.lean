import VouchSpec.StageB.Admission
import VouchSpec.StageB.Confinement
import VouchSpec.StageB.Fetcher
import VouchSpec.StageB.Manifest

/-! A frozen source that is found again: its manifest is accepted beside the files that it
was written for, and beside no others. -/

namespace VouchSpec

namespace StageB

open Inspection RequestSchema Signing

section
variable {t : Toolkit} {sha1 : Bytes → Bytes} {u : Unicode} {limits : ScanLimits} {value : Json}
  {request : ValidationRequest} {attempt : Attempt} {stored : Stored} {networkPhase : String} {snapshot : Snapshot}
  {files : List Json}

theorem valid_of_parse (h : parseFreshValidationRequest value = .ok request) : Source.Valid request.source := by
  obtain ⟨source, maximum, read⟩ := parseFreshValidationRequest_eq_ok.mp h
  obtain ⟨given, -, hSkill⟩ := read.skillPath
  obtain rfl := (validateSkillPath_eq_ok.mp hSkill).1
  exact ⟨read.owner.2, read.repository.2, read.commit.2, hSkill⟩

theorem networkPhaseOf_mem (fetcher : Bool) : networkPhaseOf fetcher ∈ networkPhases := by
  cases fetcher
  · exact List.mem_cons_self
  · exact List.mem_cons_of_mem _ List.mem_cons_self

theorem getLast?_artifactRoot (root : List String) (skillPath : String) :
    (root ++ artifactNames skillPath).getLast? = some (PosixPath.ofString skillPath).name := by
  rw [artifactNames, List.getLast?_append]
  rfl

/-- The files of a manifest, as a freeze makes them. -/
theorem entries_of_freezeFiles {skillPath : String} {raw : Bytes} {expected : List (String × Metadata)}
    {recorded : List (String × String)} (hListing : parseTreeListing u limits skillPath raw = .ok expected)
    (h : freezeFiles expected recorded snapshot = .ok files) :
    List.Forall₂ (fun file item => ∃ metadata : Metadata, IsBlob metadata.gitBlobSha1 metadata.gitMode ∧
      item = fileEntry file metadata) snapshot.files files := by
  obtain ⟨listing, sound, rfl, -⟩ := sound_of_parseTreeListing hListing
  refine (Except.forall₂_of_mapM h).imp ?_
  intro file item hItem
  simp only [Except.bind_eq_ok_iff, Except.ofOption_eq_ok_iff, require_eq_ok, exists_const, Except.pure_eq_ok_iff] at hItem
  obtain ⟨metadata, hFound, -, rfl⟩ := hItem
  obtain ⟨before, after, hSplit, -⟩ := List.lookup_eq_some_iff.mp hFound
  have hMember : (file.path, metadata) ∈ listing.expected := by
    rw [hSplit]
    exact List.mem_append_right _ List.mem_cons_self
  exact ⟨metadata, sound.blobs _ hMember, rfl⟩

/-- The numbers of a snapshot are short enough to be read back. -/
theorem lt_pow_maxDigits {count : Nat} (h : count ≤ 25000000) : count < 10 ^ Json.maxDigits :=
  calc count ≤ 25000000 := h
    _ < 10 ^ 8 := by decide
    _ ≤ 10 ^ Json.maxDigits := Nat.pow_le_pow_right (by decide) (by decide)

/-- What a freeze leaves in its directory, once everything has been accepted. -/
theorem written_of_buildFrozen (hRequest : parseFreshValidationRequest value = .ok request)
    (h : buildFrozen t sha1 u limits request attempt = .ok stored) :
    ∃ entries snapshot files, stored.entryAt (artifactNames request.source.skillPath) = some (.directory entries) ∧
      collectSnapshot u limits t.toPlatform (attempt.workRoot ++ artifactNames request.source.skillPath)
        (some (.directory entries)) attempt.captured = .ok snapshot ∧
      Written request (networkPhaseOf attempt.fetcher) snapshot files ∧
      stored.manifest = some (jsonLine (writtenManifest t request (networkPhaseOf attempt.fetcher) snapshot files)) := by
  simp only [buildFrozen, Except.bind_eq_ok_iff, require_eq_ok, exists_const, Except.mapError_eq_ok_iff,
    Except.pure_eq_ok_iff] at h
  obtain ⟨repository, -, fetched, -, rfl, objectType, -, -, raw, -, expected, hListing, archive, -, ⟨⟩, -, snapshot,
    hSnapshot, files, hFiles, rfl⟩ := h
  obtain ⟨entries, hTree⟩ := tree_of_collectSnapshot hSnapshot
  have accepted := accepted_of_collectSnapshot hSnapshot
  have hFileBytes : limits.maxFileBytes ≤ 2000000 := limits.ceilings.2.2.2.2.2.2.2.2.2.2.1
  have hTotalBytes : limits.maxTotalBytes ≤ 25000000 := limits.ceilings.2.2.2.2.2.2.2.2.2.1
  have hCount : limits.maxFiles ≤ 1000 := limits.ceilings.1
  rw [hTree] at hSnapshot
  refine ⟨entries, snapshot, files, hTree, hSnapshot, ?_, rfl⟩
  constructor
  · exact valid_of_parse hRequest
  · exact networkPhaseOf_mem attempt.fetcher
  · exact entries_of_freezeFiles hListing hFiles
  · intro file hFile
    have hBound := (accepted.files file hFile).bounded
    exact lt_pow_maxDigits (by omega)
  · have hBound := accepted.totalBytes
    exact lt_pow_maxDigits (by omega)
  · have hBound := accepted.fileCount
    exact lt_pow_maxDigits (by omega)

/-- A capture depends on the last name of its root only. -/
theorem collectSnapshot_moved {p : Platform} {root moved : List String} {entries : List (String × Entry)}
    {times later : CaptureTimes} (hName : moved.getLast? = root.getLast?)
    (h : collectSnapshot u limits p root (some (.directory entries)) times = .ok snapshot) :
    collectSnapshot u limits p moved (some (.directory entries)) later =
      .ok { snapshot with root := moved, times := later } := by
  obtain ⟨hRoot, capture, hWalk, rfl⟩ := collectSnapshot_eq_ok_iff.mp h
  refine collectSnapshot_eq_ok_iff.mpr ⟨?_, capture, hWalk, rfl⟩
  rwa [hName]

/-- A manifest that was written is read back. -/
theorem loads_written (written : Written request networkPhase snapshot files) :
    t.loads (jsonLine (writtenManifest t request networkPhase snapshot files)) =
      some (writtenManifest t request networkPhase snapshot files).sorted := by
  have hPlain := (written.plain (t := t)).mono (by decide : 4 ≤ readableDepth)
  rw [jsonLine_eq, t.loads_text hPlain.sorted Blank.line]

/-- The verification beside a manifest that was written: the files are captured and compared. -/
theorem verify_written (written : Written request networkPhase snapshot files) {directory : FrozenDirectory}
    (hManifest : directory.manifest = some (jsonLine (writtenManifest t request networkPhase snapshot files)))
    (times : CaptureTimes) (frozen : FrozenSource) :
    verifyFrozenSource t u limits directory times = .ok frozen ↔
      (∃ later, collectSnapshot u limits t.toPlatform (directory.root ++ artifactNames request.source.skillPath)
          (directory.entryAt (artifactNames request.source.skillPath)) times = .ok later ∧
        checkInventory (writtenManifest t request networkPhase snapshot files).sorted later = .ok ()) ∧
      frozen = {
        root := directory.root
        artifactRoot := directory.root ++ artifactNames request.source.skillPath
        manifest := (writtenManifest t request networkPhase snapshot files).sorted } := by
  have hLoads : loadStrictCommerceJson t (jsonLine (writtenManifest t request networkPhase snapshot files)) =
      .ok (writtenManifest t request networkPhase snapshot files).sorted := by
    rw [loadStrictCommerceJson, loads_written written]
    rfl
  simp only [verifyFrozenSource, hManifest, Except.bind_eq_ok_iff, Except.ofOption_eq_ok_iff, Except.pure_eq_ok_iff]
  constructor
  · rintro ⟨text, hText, manifest, hManifest, source, hSource, later, hLater, ⟨⟩, hInventory, rfl⟩
    obtain rfl := Option.some.inj hText
    obtain rfl := Except.ok.inj (hLoads.symm.trans hManifest)
    obtain rfl := Except.ok.inj ((checkManifest_written written).symm.trans hSource)
    exact ⟨⟨later, hLater, hInventory⟩, rfl⟩
  · rintro ⟨⟨later, hLater, hInventory⟩, rfl⟩
    exact ⟨_, rfl, _, hLoads, _, checkManifest_written written, later, hLater, (), hInventory, rfl⟩

/-- No second byte string that a directory encodes to has the digest of the first. -/
def NoCollision (t : Toolkit) (first second : List FileData) : Prop :=
  (t.sha256 (directoryBytes first)).hexdigest = (t.sha256 (directoryBytes second)).hexdigest →
    directoryBytes first = directoryBytes second

/-- The bytes of a snapshot are those of its files. -/
theorem totalBytes_of_files {p : Platform} {tree : Entry} (captures : Captures p tree snapshot) :
    snapshot.totalBytes = (snapshot.files.map fun file => file.content.length).sum := by
  have hPerm := (captures.files.map fun file : String × Bytes => file.2.length).sum_eq
  rw [List.map_map] at hPerm
  exact captures.totalBytes.trans hPerm.symm

/-- The verification beside the manifest of a snapshot, of any tree. -/
theorem accepts_iff (written : Written request networkPhase snapshot files) {entries : List (String × Entry)}
    {root : List String} {captured : CaptureTimes}
    (hSnapshot : collectSnapshot u limits t.toPlatform root (some (.directory entries)) captured = .ok snapshot)
    {directory : FrozenDirectory}
    (hManifest : directory.manifest = some (jsonLine (writtenManifest t request networkPhase snapshot files)))
    (times : CaptureTimes)
    (hCollision : ∀ later, collectSnapshot u limits t.toPlatform (directory.root ++ artifactNames request.source.skillPath)
      (directory.entryAt (artifactNames request.source.skillPath)) times = .ok later →
      NoCollision t snapshot.files later.files) :
    (∃ frozen, verifyFrozenSource t u limits directory times = .ok frozen) ↔
      ∃ more later, directory.entryAt (artifactNames request.source.skillPath) = some (.directory more) ∧
        collectSnapshot u limits t.toPlatform (directory.root ++ artifactNames request.source.skillPath)
          (some (.directory more)) times = .ok later ∧
        ∀ path content, (path, content) ∈ (Entry.directory more).regularFiles ↔
          (path, content) ∈ (Entry.directory entries).regularFiles := by
  simp only [verify_written written hManifest]
  constructor
  · rintro ⟨frozen, ⟨later, hLater, hInventory⟩, -⟩
    obtain ⟨more, hMore⟩ := tree_of_collectSnapshot hLater
    have hDirectory := directory_of_checkInventory written hInventory
    rw [(accepted_of_collectSnapshot hLater).directory, (accepted_of_collectSnapshot hSnapshot).directory] at hDirectory
    have hBytes := hCollision later hLater hDirectory.symm
    rw [hMore] at hLater
    refine ⟨more, later, hMore, hLater, ?_⟩
    exact (directoryBytes_eq_iff t.toPlatform u limits limits _ _ _ _ _ _ _ _ hLater hSnapshot).2.mp hBytes.symm
  · rintro ⟨more, later, hMore, hLater, hSame⟩
    have hBytes := (directoryBytes_eq_iff t.toPlatform u limits limits _ _ _ _ _ _ _ _ hLater hSnapshot).2.mpr hSame
    have hFiles := files_eq_of_directoryBytes hLater hSnapshot hBytes
    have hTotal : later.totalBytes = snapshot.totalBytes := by
      rw [totalBytes_of_files (captures_of_collectSnapshot hLater), hFiles,
        ← totalBytes_of_files (captures_of_collectSnapshot hSnapshot)]
    have hDirectory : later.directorySha256 = snapshot.directorySha256 := by
      rw [(accepted_of_collectSnapshot hLater).directory, (accepted_of_collectSnapshot hSnapshot).directory, hBytes]
    refine ⟨_, ⟨later, ?_, checkInventory_written written hFiles hTotal hDirectory⟩, rfl⟩
    rwa [hMore]

/-- A freeze into a directory that is not there. -/
theorem freeze_new {output : OutputRoot} (hRequest : parseFreshValidationRequest value = .ok request)
    (hNew : output.entries (requestDigest t.toPlatform request) = none) :
    freezePublicSource t sha1 u limits value attempt output =
      match buildFrozen t sha1 u limits request attempt with
      | .error error => (.error error, output)
      | .ok stored =>
          let after : OutputRoot :=
            { output with entries := Function.update output.entries (requestDigest t.toPlatform request) (some stored) }
          (verifyTarget t u limits after (requestDigest t.toPlatform request) attempt.verified, after) := by
  have hParsed : Routine.Returns (Routine.reading fun _ : OutputRoot =>
      (parseFreshValidationRequest value).mapError refused) output request output :=
    Routine.returns_reading.mpr ⟨Except.mapError_eq_ok_iff.mpr hRequest, rfl⟩
  have hAbsent : Routine.Returns (Routine.reading fun output : OutputRoot =>
      (.ok (output.entries (requestDigest t.toPlatform request)) : Except Failure (Option Stored))) output none output :=
    Routine.returns_reading.mpr ⟨congrArg Except.ok hNew, rfl⟩
  rw [freezePublicSource, Routine.bind_of_returns hParsed, Routine.bind_of_returns hAbsent, if_neg (by decide)]
  cases hBuilt : buildFrozen t sha1 u limits request attempt with
  | error error => simp [bind, Routine.transaction, Except.bind]
  | ok stored => simp [bind, Routine.transaction, Except.bind, pure, Except.pure, Routine.reading]

/-- What a freeze has just written is accepted. -/
theorem verifyTarget_of_buildFrozen {output : OutputRoot} (hRequest : parseFreshValidationRequest value = .ok request)
    (hBuilt : buildFrozen t sha1 u limits request attempt = .ok stored) {name : String}
    (hStored : output.entries name = some stored) (times : CaptureTimes) :
    ∃ frozen, verifyTarget t u limits output name times = .ok frozen := by
  obtain ⟨entries, snapshot, files, hTree, hSnapshot, written, hManifest⟩ := written_of_buildFrozen hRequest hBuilt
  have hName : ((output.path ++ [name]) ++ artifactNames request.source.skillPath).getLast? =
      (attempt.workRoot ++ artifactNames request.source.skillPath).getLast? := by
    rw [getLast?_artifactRoot, getLast?_artifactRoot]
  have hAgain := @collectSnapshot_moved u limits snapshot t.toPlatform _ _ _ _ times hName hSnapshot
  have hInventory := @checkInventory_written t _ _ _ _ written
    { snapshot with root := (output.path ++ [name]) ++ artifactNames request.source.skillPath, times := times }
    rfl rfl rfl
  simp only [verifyTarget, hStored, Except.bind_eq_ok_iff, Except.ofOption_eq_ok_iff, Except.mapError_eq_ok_iff]
  refine ⟨_, stored, rfl, (verify_written written hManifest times _).mpr ⟨⟨_, ?_, hInventory⟩, rfl⟩⟩
  rw [← hTree] at hAgain
  exact hAgain

end

/-- The manifest of a freeze is accepted as it is written, and later beside exactly the
directories that can be captured and hold the same files. -/
theorem tamper_evident (t : Toolkit) (sha1 : Bytes → Bytes) (u : Unicode) (limits : ScanLimits) (value : Json)
    (request : ValidationRequest) (attempt : Attempt) (output : OutputRoot) (stored : Stored)
    (hRequest : parseFreshValidationRequest value = .ok request)
    (hNew : output.entries (requestDigest t.toPlatform request) = none)
    (hFrozen : (freezePublicSource t sha1 u limits value attempt output).2.entries
      (requestDigest t.toPlatform request) = some stored) :
    (∃ frozen, (freezePublicSource t sha1 u limits value attempt output).1 = .ok frozen) ∧
    ∃ entries snapshot, stored.entryAt (artifactNames request.source.skillPath) = some (.directory entries) ∧
      collectSnapshot u limits t.toPlatform (attempt.workRoot ++ artifactNames request.source.skillPath)
        (some (.directory entries)) attempt.captured = .ok snapshot ∧
      ∀ directory times, directory.manifest = stored.manifest →
        (∀ later, collectSnapshot u limits t.toPlatform (directory.root ++ artifactNames request.source.skillPath)
          (directory.entryAt (artifactNames request.source.skillPath)) times = .ok later →
          NoCollision t snapshot.files later.files) →
        ((∃ frozen, verifyFrozenSource t u limits directory times = .ok frozen) ↔
          ∃ more later, directory.entryAt (artifactNames request.source.skillPath) = some (.directory more) ∧
            collectSnapshot u limits t.toPlatform (directory.root ++ artifactNames request.source.skillPath)
              (some (.directory more)) times = .ok later ∧
            ∀ path content, (path, content) ∈ (Entry.directory more).regularFiles ↔
              (path, content) ∈ (Entry.directory entries).regularFiles) := by
  rw [freeze_new hRequest hNew] at hFrozen ⊢
  cases hBuilt : buildFrozen t sha1 u limits request attempt with
  | error error =>
      simp only [hBuilt, hNew] at hFrozen
      cases hFrozen
  | ok built =>
      simp only [hBuilt, Function.update_self] at hFrozen
      obtain rfl := Option.some.inj hFrozen
      obtain ⟨entries, snapshot, files, hTree, hSnapshot, written, hManifest⟩ :=
        written_of_buildFrozen hRequest hBuilt
      refine ⟨verifyTarget_of_buildFrozen hRequest hBuilt (Function.update_self _ _ _) _, entries, snapshot, hTree,
        hSnapshot, ?_⟩
      intro directory times hKept hCollision
      exact accepts_iff written hSnapshot (hKept.trans hManifest) times hCollision

/-- SHA-1 of the blob of one byte, whatever is asked for. -/
def sampleSha1 (_ : Bytes) : Bytes :=
  [0x8c, 0x7e, 0x5a, 0x66, 0x7f, 0x1b, 0x77, 0x18, 0x47, 0xfe, 0x88, 0xc0, 0x1c, 0x3d, 0xe3, 0x44, 0x13, 0xa1, 0xb2, 0x20]

/-- What Git answers for a skill of one file. -/
def sampleRepository : Repository where
  fetchHead := .ok (Bytes.ascii "0123456789abcdef0123456789abcdef01234567\n")
  objectType := .ok (Bytes.ascii "tree\n")
  listing := .ok (sampleRaw ["SKILL.md"])
  archive := .ok (fileArchive "skill" "SKILL.md" [65])

def sampleAttempt : Attempt where
  disk := Disk.bare
  workRoot := []
  fetcher := true
  fetch _ := .ok sampleRepository
  scan _ names := if names = ["source", "skill"] then some (.directory [("SKILL.md", .file 1 [65])]) else none
  captured := ⟨"", "", ""⟩
  verified := ⟨"", "", ""⟩

def emptyRoot : OutputRoot where
  path := ["frozen"]
  entries _ := none

theorem absent_emptyRoot (name : String) : emptyRoot.entries name = none := rfl

theorem parse_skill : parseFreshValidationRequest (RequestSchema.sample "skill") = .ok (Fetcher.sampleRequest "skill") := by
  decide +kernel

theorem names_skill : artifactNames (Fetcher.sampleRequest "skill").source.skillPath = ["source", "skill"] := by
  decide +kernel

def skillFiles (p : Platform) : List FileData := [fileData p "SKILL.md" [65]]

def skillSnapshot (p : Platform) (times : CaptureTimes) : Snapshot where
  root := ["source", "skill"]
  files := skillFiles p
  totalBytes := 1
  directorySha256 := (p.sha256 (directoryBytes (skillFiles p))).hexdigest
  excludedPaths := []
  times := times

theorem collect_skill (p : Platform) (times : CaptureTimes) :
    collectSnapshot asciiUnicode {} p ["source", "skill"] (some (.directory [("SKILL.md", .file 1 [65])])) times =
      .ok (skillSnapshot p times) := by
  rfl

theorem build_sample (t : Toolkit) : ∃ stored,
    buildFrozen t sampleSha1 asciiUnicode {} (Fetcher.sampleRequest "skill") sampleAttempt = .ok stored := by
  have hCheck : checkMember sampleSha1 asciiUnicode {} "skill" [("SKILL.md", sampleMetadata)] []
      ⟨Text.ofString "skill" ++ slash :: Text.ofString "SKILL.md", .regular, [], ([65] : Bytes).length, .bytes [65]⟩ =
        .ok (some ("SKILL.md", [65])) := by
    decide +kernel
  have hDestination : destinationOf ["source", "skill"] "SKILL.md" = ["source", "skill", "SKILL.md"] := by decide +kernel
  obtain ⟨last, -, hRun⟩ := @extract_one t.toPlatform sampleSha1 asciiUnicode {} "skill" [("SKILL.md", sampleMetadata)]
    ["source", "skill"] "SKILL.md" [65] (by decide) (by rw [hDestination]; decide) (by rw [hDestination]; decide) hCheck
  have hCommit : answerText (Bytes.ascii "0123456789abcdef0123456789abcdef01234567\n") =
      .ok (Fetcher.sampleRequest "skill").source.commit := by
    decide +kernel
  have hTree : answerText (Bytes.ascii "tree\n") = .ok "tree" := by decide +kernel
  have hRoot : sampleAttempt.workRoot ++ artifactNames (Fetcher.sampleRequest "skill").source.skillPath =
      ["source", "skill"] := names_skill
  have hSkill : (Fetcher.sampleRequest "skill").source.skillPath = "skill" := rfl
  have hDisk : sampleAttempt.disk = Disk.bare := rfl
  have hExpected : (∀ path ∈ ["SKILL.md"], path ∈ [("SKILL.md", sampleMetadata)].map Prod.fst) ∧
      ∀ path ∈ [("SKILL.md", sampleMetadata)].map Prod.fst, path ∈ ["SKILL.md"] := by decide
  rw [require_of hExpected] at hRun
  have hFiles : freezeFiles [("SKILL.md", sampleMetadata)] [("SKILL.md", (t.sha256 [65]).hexdigest)]
      (skillSnapshot t.toPlatform ⟨"", "", ""⟩) =
        .ok [fileEntry (fileData t.toPlatform "SKILL.md" [65]) sampleMetadata] := by
    simp [freezeFiles, skillSnapshot, skillFiles, fileData, Except.ofOption, bind, Except.bind,
      require, pure, Except.pure, sampleMetadata]
  simp only [buildFrozen, hRoot, Except.bind_eq_ok_iff, require_eq_ok, exists_const, Except.mapError_eq_ok_iff,
    Except.pure_eq_ok_iff]
  refine ⟨_, sampleRepository, rfl, _, ⟨_, rfl, hCommit⟩, rfl, _, ⟨_, rfl, hTree⟩, rfl, _, rfl, _, parse_sample, _, rfl,
    (), ?_, skillSnapshot t.toPlatform ⟨"", "", ""⟩, ?_, [fileEntry (fileData t.toPlatform "SKILL.md" [65]) sampleMetadata], ?_, rfl⟩
  · rw [hSkill, hDisk, hRun]
  · exact collect_skill t.toPlatform _
  · rw [hSkill, hDisk, hRun]
    exact hFiles
theorem frozen_sample : ∃ stored, (freezePublicSource Toolkit.standard sampleSha1 asciiUnicode {}
    (RequestSchema.sample "skill") sampleAttempt emptyRoot).2.entries
      (requestDigest Toolkit.standard.toPlatform (Fetcher.sampleRequest "skill")) = some stored := by
  obtain ⟨stored, hStored⟩ := build_sample Toolkit.standard
  have hRun := @freeze_new Toolkit.standard sampleSha1 asciiUnicode {} (RequestSchema.sample "skill")
    (Fetcher.sampleRequest "skill") sampleAttempt emptyRoot parse_skill (absent_emptyRoot _)
  rw [hStored] at hRun
  refine ⟨stored, ?_⟩
  rw [hRun]
  simp only [Function.update_self]

theorem tamper_evident_sample : ∃ frozen, (freezePublicSource Toolkit.standard sampleSha1 asciiUnicode {}
    (RequestSchema.sample "skill") sampleAttempt emptyRoot).1 = .ok frozen := by
  obtain ⟨stored, hStored⟩ := frozen_sample
  exact (tamper_evident Toolkit.standard sampleSha1 asciiUnicode {} (RequestSchema.sample "skill")
    (Fetcher.sampleRequest "skill") sampleAttempt emptyRoot stored parse_skill (absent_emptyRoot _) hStored).1

end StageB

end VouchSpec
