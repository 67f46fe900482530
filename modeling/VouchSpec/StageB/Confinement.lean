import VouchSpec.StageB.Extraction

/-! What an extraction leaves on the disk: exactly the expected files below the artifact
root, and nothing elsewhere unless an expected path is absolute. -/

namespace VouchSpec

namespace StageB

open Inspection

/-- Nothing has changed outside of the artifact root, other than missing directories on the
way to it. -/
def Confined (artifactRoot : List String) (before after : Disk) : Prop :=
  ∀ path, after.at? path ≠ before.at? path → artifactRoot <+: path ∨
    (path <+: artifactRoot ∧ before.at? path = none ∧ after.at? path = some .directory)

section
variable (p : Platform) (sha1 : Bytes → Bytes) (u : Unicode) (limits : ScanLimits) (skillPath : String)
  (expected : List (String × Metadata)) (artifactRoot : List String)

/-- An expected file with its contents and its recorded digest. -/
structure Saved (after : Extraction) (relative : String) (metadata : Metadata) (content : Bytes) : Prop where
  stored : after.disk.at? (destinationOf artifactRoot relative) = some (.file content)
  size : content.length = metadata.size
  blob : gitBlob sha1 content = metadata.gitBlobSha1
  recorded : after.recorded.lookup relative = some (p.sha256 content).hexdigest

/-- The files below the artifact root are the expected ones. -/
structure Exact (after : Extraction) : Prop where
  files : ∀ path, (∃ content, artifactRoot <+: path ∧ after.disk.at? path = some (.file content)) ↔
    ∃ relative ∈ expected.map Prod.fst, path = destinationOf artifactRoot relative
  contents : ∀ relative metadata, expected.lookup relative = some metadata →
    ∃ content, Saved p sha1 artifactRoot after relative metadata content

/-- A member that is one of the expected files. -/
structure IsExpected (member : Member) (relative : String) : Prop where
  name : stripSlashes member.name = Text.ofString skillPath ++ slash :: Text.ofString relative
  regular : member.kind = .regular ∧ member.linkname = []
  content : ∃ metadata content, expected.lookup relative = some metadata ∧ member.size = metadata.size ∧
    readMember limits member = .ok content ∧ gitBlob sha1 content = metadata.gitBlobSha1

/-- The file members are the expected files, each once. -/
structure Accounts (archive : Archive) : Prop where
  intact : archive.malformed = false
  files : ∃ paths, List.Forall₂ (IsExpected sha1 limits skillPath expected)
      (archive.members.filter fun member => member.kind ≠ .directory) paths ∧
    paths.Nodup ∧ ∀ path, path ∈ paths ↔ path ∈ expected.map Prod.fst

/-- What an extraction has to do on every disk and with every archive. -/
structure Extracts : Prop where
  confined : ∀ archive disk, Confined artifactRoot disk
    (extractVerifiedArchive p sha1 u limits skillPath expected artifactRoot archive ⟨disk, [], []⟩).2.disk
  exact : ∀ archive disk after,
    (extractVerifiedArchive p sha1 u limits skillPath expected artifactRoot archive).Returns ⟨disk, [], []⟩ () after →
      Exact p sha1 expected artifactRoot after
  accounts : ∀ archive disk after,
    (extractVerifiedArchive p sha1 u limits skillPath expected artifactRoot archive).Returns ⟨disk, [], []⟩ () after →
      Accounts sha1 limits skillPath expected archive

/-- An expected file whose path is absolute and leads away from the artifact root. -/
structure LeadsAway (relative : String) (metadata : Metadata) (content : Bytes) : Prop where
  listed : expected.lookup relative = some metadata
  path : ArtifactPath u limits relative
  absolute : (PosixPath.ofString relative).root ≠ ""
  below : ¬ artifactRoot <+: destinationOf artifactRoot relative
  above : ¬ destinationOf artifactRoot relative <+: artifactRoot
  size : content.length = metadata.size ∧ content.length ≤ limits.maxFileBytes + 1
  blob : gitBlob sha1 content = metadata.gitBlobSha1

end

section
variable {p : Platform} {sha1 : Bytes → Bytes} {u : Unicode} {limits : ScanLimits} {skillPath : String}
  {expected : List (String × Metadata)} {artifactRoot : List String} {seen : List String} {member : Member}

theorem readMember_eq_ok_iff {content : Bytes} : readMember limits member = .ok content ↔
    ∃ bytes, member.extracted = .bytes bytes ∧ content = bytes.take (limits.maxFileBytes + 1) ∧
      (content.length : Int) = member.size := by
  unfold readMember
  cases member.extracted with
  | nothing => simp
  | broken => simp
  | bytes bytes =>
      simp only [Except.bind_eq_ok_iff, require_eq_ok, exists_const, Except.pure_eq_ok_iff, Extracted.bytes.injEq]
      constructor
      · rintro ⟨hLength, rfl⟩
        exact ⟨bytes, rfl, rfl, hLength⟩
      · rintro ⟨_, rfl, rfl, hLength⟩
        exact ⟨hLength, rfl⟩

/-- When a member is to be written. -/
theorem checkMember_eq_ok_some {relative : String} {content : Bytes} :
    checkMember sha1 u limits skillPath expected seen member = .ok (some (relative, content)) ↔
      stripSlashes member.name = Text.ofString skillPath ++ slash :: Text.ofString relative ∧
        (member.kind = .regular ∧ member.linkname = []) ∧ ArtifactPath u limits relative ∧
        ∃ metadata, expected.lookup relative = some metadata ∧ (relative ∉ seen ∧ member.size = metadata.size) ∧
          readMember limits member = .ok content ∧ gitBlob sha1 content = metadata.gitBlobSha1 := by
  have hName : ∀ path : String, Text.ofString skillPath ++ [slash] <+: stripSlashes member.name ∧
      Text.encode? ((stripSlashes member.name).drop (Text.ofString skillPath ++ [slash]).length) = some path ↔
        stripSlashes member.name = Text.ofString skillPath ++ slash :: Text.ofString path := by
    intro path
    rw [Text.encode?_eq_some]
    constructor
    · rintro ⟨⟨rest, hRest⟩, hPath⟩
      rw [← hRest, List.drop_left] at hPath
      rw [← hRest, hPath]
      simp
    · intro hSame
      have hSplit : stripSlashes member.name = (Text.ofString skillPath ++ [slash]) ++ Text.ofString path := by
        rw [hSame]
        simp
      rw [hSplit, List.drop_left]
      exact ⟨List.prefix_append _ _, rfl⟩
  by_cases hKind : member.kind = .directory
  · constructor
    · intro h
      simp only [checkMember, hKind, true_and] at h
      split at h
      · cases h
      · simp only [if_true, Except.bind_eq_ok_iff, require_eq_ok, exists_const, Except.pure_eq_ok_iff, reduceCtorEq,
          and_false] at h
    · rintro ⟨-, ⟨hRegular, -⟩, -⟩
      rw [hKind] at hRegular
      cases hRegular
  · simp only [checkMember, if_neg fun hBoth : member.kind = .directory ∧ _ => hKind hBoth.1, if_neg hKind,
      Except.bind_eq_ok_iff, require_eq_ok, exists_const, Except.pure_eq_ok_iff, Except.ofOption_eq_ok_iff,
      validateArtifactRelative_eq_ok_iff, Option.some.injEq, Prod.mk.injEq]
    constructor
    · rintro ⟨hStart, path, hPath, found, ⟨valid, rfl⟩, hRegular, metadata, hListed, hFresh, read, hRead, hBlob, rfl, rfl⟩
      exact ⟨(hName _).mp ⟨hStart, hPath⟩, hRegular, valid, metadata, hListed, hFresh, hRead, hBlob⟩
    · rintro ⟨hSame, hRegular, valid, metadata, hListed, hFresh, hRead, hBlob⟩
      obtain ⟨hStart, hPath⟩ := (hName relative).mpr hSame
      exact ⟨hStart, relative, hPath, relative, ⟨valid, rfl⟩, hRegular, metadata, hListed, hFresh, content, hRead, hBlob,
        rfl, rfl⟩

/-- A member that is left out is a directory. -/
theorem checkMember_eq_ok_none (h : checkMember sha1 u limits skillPath expected seen member = .ok none) :
    member.kind = .directory := by
  by_contra hKind
  simp only [checkMember, if_neg fun hBoth : member.kind = .directory ∧ _ => hKind hBoth.1, if_neg hKind,
    Except.bind_eq_ok_iff, Except.pure_eq_ok_iff, reduceCtorEq, and_false, exists_false] at h

/-- What holds while the members are gone through: everything new is below the artifact root. -/
structure Inside (p : Platform) (sha1 : Bytes → Bytes) (expected : List (String × Metadata)) (artifactRoot : List String)
    (before : Disk) (state : Extraction) : Prop where
  root : state.disk.at? artifactRoot = some .directory
  confined : Confined artifactRoot before state.disk
  files : ∀ path content, artifactRoot <+: path → state.disk.at? path = some (.file content) →
    ∃ relative ∈ state.seen, path = destinationOf artifactRoot relative
  saved : ∀ relative ∈ state.seen, ∃ metadata content, expected.lookup relative = some metadata ∧
    artifactRoot <+: destinationOf artifactRoot relative ∧ Saved p sha1 artifactRoot state relative metadata content

section
variable {before : Disk} {state : Extraction}

theorem Inside.of_same (inside : Inside p sha1 expected artifactRoot before state) {disk : Disk}
    (hSame : disk.at? = state.disk.at?) : Inside p sha1 expected artifactRoot before { state with disk } := by
  refine ⟨hSame ▸ inside.root, ?_, ?_, ?_⟩
  · intro path
    rw [hSame]
    exact inside.confined path
  · intro path content
    rw [hSame]
    exact inside.files path content
  · intro relative hSeen
    obtain ⟨metadata, content, hListed, hBelow, saved⟩ := inside.saved relative hSeen
    exact ⟨metadata, content, hListed, hBelow, hSame ▸ saved.stored, saved.size, saved.blob, saved.recorded⟩

/-- Directories are made below the artifact root only. -/
theorem Inside.makeDirectories (inside : Inside p sha1 expected artifactRoot before state) {path : List String}
    {made : Disk} (hBelow : artifactRoot <+: path) (h : state.disk.makeDirectories path = some made) :
    Inside p sha1 expected artifactRoot before { state with disk := made } := by
  have hMade := (Disk.makeDirectories_eq_some h).2
  constructor
  · rw [hMade, if_pos hBelow]
  · intro other hChanged
    have hOther := hMade other
    split at hOther
    · next hPrefix =>
        rcases List.prefix_or_prefix_of_prefix hPrefix hBelow with hAbove | hInside
        · -- on the way to the artifact root there are directories already
          have hSame : made.at? other = state.disk.at? other := by
            rw [hOther, state.disk.directory_of_front hAbove inside.root]
          have hEarlier := inside.confined other (hSame ▸ hChanged)
          rwa [← hSame] at hEarlier
        · exact Or.inl hInside
    · have hEarlier := inside.confined other (hOther ▸ hChanged)
      rwa [← hOther] at hEarlier
  · intro other content hOther hFile
    exact inside.files other content hOther ((Disk.file_makeDirectories h).mp hFile)
  · intro relative hSeen
    obtain ⟨metadata, content, hListed, hInside, saved⟩ := inside.saved relative hSeen
    exact ⟨metadata, content, hListed, hInside, (Disk.file_makeDirectories h).mpr saved.stored, saved.size, saved.blob,
      saved.recorded⟩

/-- A new file below the artifact root is one that has been checked. -/
theorem Inside.createFile (inside : Inside p sha1 expected artifactRoot before state) {relative : String}
    {metadata : Metadata} {content : Bytes} {disk : Disk} (hNew : relative ∉ state.seen)
    (hListed : expected.lookup relative = some metadata) (hSize : content.length = metadata.size)
    (hBlob : gitBlob sha1 content = metadata.gitBlobSha1) (hBelow : artifactRoot <+: destinationOf artifactRoot relative)
    (h : state.disk.createFile (destinationOf artifactRoot relative) content = some disk) :
    Inside p sha1 expected artifactRoot before
      { disk, seen := relative :: state.seen
        recorded := (relative, (p.sha256 content).hexdigest) :: state.recorded } := by
  obtain ⟨hNone, hDisk⟩ := Disk.createFile_eq_some h
  have hOther : ∀ path, state.disk.at? path ≠ none → disk.at? path = state.disk.at? path := by
    intro path hSome
    rw [hDisk, if_neg]
    rintro rfl
    exact hSome hNone
  constructor
  · rw [hOther _ (by simp [inside.root]), inside.root]
  · intro path hChanged
    by_cases hPath : path = destinationOf artifactRoot relative
    · exact Or.inl (hPath ▸ hBelow)
    · have hSame := hDisk path
      rw [if_neg hPath] at hSame
      have hEarlier := inside.confined path (hSame ▸ hChanged)
      rwa [← hSame] at hEarlier
  · intro path found hPath hFile
    by_cases hSame : path = destinationOf artifactRoot relative
    · exact ⟨relative, List.mem_cons_self, hSame⟩
    · rw [hDisk, if_neg hSame] at hFile
      obtain ⟨other, hSeen, hOtherPath⟩ := inside.files path found hPath hFile
      exact ⟨other, List.mem_cons_of_mem _ hSeen, hOtherPath⟩
  · intro other hSeen
    rcases List.mem_cons.mp hSeen with rfl | hEarlier
    · refine ⟨metadata, content, hListed, hBelow, ?_, hSize, hBlob, ?_⟩
      · rw [hDisk, if_pos rfl]
      · simp
    · obtain ⟨data, found, hData, hInside, saved⟩ := inside.saved other hEarlier
      have hDifferent : other ≠ relative := fun hSame => hNew (hSame ▸ hEarlier)
      refine ⟨data, found, hData, hInside, ?_, saved.size, saved.blob, ?_⟩
      · rw [hOther _ (by simp [saved.stored]), saved.stored]
      · rw [List.lookup_cons, beq_false_of_ne hDifferent]
        exact saved.recorded

/-- Whether it comes to an end or not, the writing of a file keeps to the artifact root. -/
theorem Inside.saveFile (inside : Inside p sha1 expected artifactRoot before state) {relative : String}
    {metadata : Metadata} {content : Bytes} (hNew : relative ∉ state.seen)
    (hListed : expected.lookup relative = some metadata) (hSize : content.length = metadata.size)
    (hBlob : gitBlob sha1 content = metadata.gitBlobSha1)
    (hPlace : destinationOf artifactRoot relative <+: artifactRoot ∨ artifactRoot <+: destinationOf artifactRoot relative) :
    Inside p sha1 expected artifactRoot before (saveFile p artifactRoot relative content state).2 := by
  unfold StageB.saveFile
  simp only
  cases hMade : state.disk.makeDirectories (destinationOf artifactRoot relative).dropLast with
  | none => exact inside
  | some made =>
      simp only
      by_cases hAbove : destinationOf artifactRoot relative <+: artifactRoot
      · -- a directory is there already, and no file can be made in its place
        have hThere := state.disk.directory_of_front hAbove inside.root
        have hParent := state.disk.directory_of_front ((List.dropLast_prefix _).trans hAbove) inside.root
        obtain ⟨next, hNext, hSame⟩ := Disk.makeDirectories_of_directory hParent
        obtain rfl : next = made := Option.some.inj (hNext.symm.trans hMade)
        cases hFile : next.createFile (destinationOf artifactRoot relative) content with
        | none => exact inside.of_same hSame
        | some disk =>
            have hNone := (Disk.createFile_eq_some hFile).1
            rw [hSame, hThere] at hNone
            cases hNone
      · have hBelow := hPlace.resolve_left hAbove
        have hLength : artifactRoot.length < (destinationOf artifactRoot relative).length :=
          lt_of_le_of_ne hBelow.length_le fun hSame => hAbove (hBelow.eq_of_length hSame ▸ List.prefix_refl _)
        have hParent : artifactRoot <+: (destinationOf artifactRoot relative).dropLast := by
          refine List.prefix_of_prefix_length_le hBelow (List.dropLast_prefix _) ?_
          rw [List.length_dropLast]
          omega
        have insideMade := inside.makeDirectories hParent hMade
        cases hFile : made.createFile (destinationOf artifactRoot relative) content with
        | none => exact insideMade
        | some disk => exact insideMade.createFile hNew hListed hSize hBlob hBelow hFile

theorem saveFile_returns {after : Extraction} {relative : String} {content : Bytes} {result : Unit}
    (h : (saveFile p artifactRoot relative content).Returns state result after) :
    after.seen = relative :: state.seen := by
  unfold Routine.Returns saveFile at h
  simp only at h
  split at h
  · cases h
  · split at h
    · cases h
    · cases h
      rfl

end

/-- One member keeps to the artifact root, unless it leads away from it. -/
theorem extractMember_inside {before : Disk}
    (hKept : ∀ relative metadata content, ¬ LeadsAway sha1 u limits expected artifactRoot relative metadata content) :
    Routine.Triple (Inside p sha1 expected artifactRoot before)
      (extractMember p sha1 u limits skillPath expected artifactRoot member)
      (fun _ => Inside p sha1 expected artifactRoot before) (Inside p sha1 expected artifactRoot before) := by
  refine Routine.triple_bind
    (fun found state => Inside p sha1 expected artifactRoot before state ∧
      checkMember sha1 u limits skillPath expected state.seen member = .ok found)
    (Routine.triple_reading (fun state found inside hCheck => ⟨inside, hCheck⟩) fun state inside => inside) ?_
  intro found
  cases found with
  | none => exact Routine.triple_pure fun state h => h.1
  | some found =>
      obtain ⟨relative, content⟩ := found
      refine Routine.triple_of_outcome ?_
      rintro state ⟨inside, hCheck⟩
      obtain ⟨-, -, path, metadata, hListed, ⟨hNew, hSize⟩, hRead, hBlob⟩ := checkMember_eq_ok_some.mp hCheck
      obtain ⟨bytes, -, hTaken, hLength⟩ := readMember_eq_ok_iff.mp hRead
      have hContent : content.length = metadata.size := by omega
      have hBound : content.length ≤ limits.maxFileBytes + 1 := by
        rw [hTaken]
        exact List.length_take_le _ _
      refine inside.saveFile hNew hListed hContent hBlob ?_
      by_contra hNeither
      rw [not_or] at hNeither
      refine hKept relative metadata content ⟨hListed, path, ?_, hNeither.2, hNeither.1, ⟨hContent, hBound⟩, hBlob⟩
      intro hRoot
      refine hNeither.2 ?_
      rw [destinationOf, if_pos hRoot]
      exact List.prefix_append _ _

theorem inside_makeRoot {disk made : Disk} (hNone : disk.at? artifactRoot = none)
    (h : disk.makeDirectories artifactRoot = some made) :
    Inside p sha1 expected artifactRoot disk ⟨made, [], []⟩ := by
  obtain ⟨hFree, hMade⟩ := Disk.makeDirectories_eq_some h
  constructor
  · rw [hMade, if_pos (List.prefix_refl _)]
  · intro path hChanged
    have hPath := hMade path
    split at hPath
    · next hAbove =>
        refine Or.inr ⟨hAbove, ?_, hPath⟩
        have hBefore := hFree path hAbove
        cases hNode : disk.at? path with
        | none => rfl
        | some node =>
            cases node with
            | directory => exact absurd (hPath.trans hNode.symm) hChanged
            | file content => simp [Disk.isFree, hNode] at hBefore
    · exact absurd hPath hChanged
  · intro path content hBelow hFile
    rw [hMade] at hFile
    split at hFile
    · cases hFile
    · rw [disk.none_of_front hBelow hNone] at hFile
      cases hFile
  · intro relative hSeen
    cases hSeen

/-- Every extraction keeps to the artifact root, and one that returns has seen what it expects. -/
theorem extract_inside
    (hKept : ∀ relative metadata content, ¬ LeadsAway sha1 u limits expected artifactRoot relative metadata content)
    (archive : Archive) (disk : Disk) :
    Routine.Triple (fun state => state = ⟨disk, [], []⟩)
      (extractVerifiedArchive p sha1 u limits skillPath expected artifactRoot archive)
      (fun _ after => Inside p sha1 expected artifactRoot disk after ∧
        ∀ path, path ∈ after.seen ↔ path ∈ expected.map Prod.fst)
      fun after => Confined artifactRoot disk after.disk := by
  refine Routine.triple_bind (fun _ => Inside p sha1 expected artifactRoot disk) ?_ fun _ =>
    Routine.triple_bind (fun _ => Inside p sha1 expected artifactRoot disk) ?_ fun _ =>
    Routine.triple_bind (fun _ => Inside p sha1 expected artifactRoot disk) ?_ fun _ => ?_
  · rintro state rfl
    have hSame : Confined artifactRoot disk disk := fun path hChanged => absurd rfl hChanged
    unfold makeRoot
    simp only
    by_cases hNone : disk.at? artifactRoot = none
    · rw [if_pos hNone]
      cases hMade : disk.makeDirectories artifactRoot with
      | none => exact hSame
      | some made => exact inside_makeRoot hNone hMade
    · rw [if_neg hNone]
      exact hSame
  · exact (Routine.triple_forM fun member _ => extractMember_inside hKept).raising fun _ inside => inside.confined
  · exact Routine.triple_reading (fun _ _ inside _ => inside) fun _ inside => inside.confined
  · refine Routine.triple_reading ?_ fun _ inside => inside.confined
    intro state result inside hSeen
    have hBoth := require_eq_ok.mp hSeen
    exact ⟨inside, fun path => ⟨hBoth.1 path, hBoth.2 path⟩⟩

theorem exact_of_inside {before : Disk} {after : Extraction} (inside : Inside p sha1 expected artifactRoot before after)
    (hSeen : ∀ path, path ∈ after.seen ↔ path ∈ expected.map Prod.fst) : Exact p sha1 expected artifactRoot after := by
  constructor
  · intro path
    constructor
    · rintro ⟨content, hBelow, hFile⟩
      obtain ⟨relative, hRelative, hPath⟩ := inside.files path content hBelow hFile
      exact ⟨relative, (hSeen relative).mp hRelative, hPath⟩
    · rintro ⟨relative, hListed, rfl⟩
      obtain ⟨metadata, content, -, hBelow, saved⟩ := inside.saved relative ((hSeen relative).mpr hListed)
      exact ⟨content, hBelow, saved.stored⟩
  · intro relative metadata hListed
    have hMember : relative ∈ expected.map Prod.fst := by
      obtain ⟨front, back, hSplit, -⟩ := List.lookup_eq_some_iff.mp hListed
      simp [hSplit]
    obtain ⟨data, content, hData, -, saved⟩ := inside.saved relative ((hSeen relative).mpr hMember)
    obtain rfl := Option.some.inj (hListed.symm.trans hData)
    exact ⟨content, saved⟩

theorem extractMember_returns {state after : Extraction} {result : Unit}
    (h : (extractMember p sha1 u limits skillPath expected artifactRoot member).Returns state result after) :
    (member.kind = .directory ∧ after.seen = state.seen) ∨
      member.kind ≠ .directory ∧ ∃ relative, relative ∉ state.seen ∧ after.seen = relative :: state.seen ∧
        IsExpected sha1 limits skillPath expected member relative := by
  obtain ⟨found, middle, hReading, hNext⟩ := Routine.returns_bind.mp h
  obtain ⟨hCheck, rfl⟩ := Routine.returns_reading.mp hReading
  cases found with
  | none =>
      obtain ⟨-, rfl⟩ := Routine.returns_pure.mp hNext
      exact Or.inl ⟨checkMember_eq_ok_none hCheck, rfl⟩
  | some found =>
      obtain ⟨relative, content⟩ := found
      obtain ⟨hName, hRegular, -, metadata, hListed, ⟨hNew, hSize⟩, hRead, hBlob⟩ := checkMember_eq_ok_some.mp hCheck
      refine Or.inr ⟨?_, relative, hNew, saveFile_returns hNext, hName, hRegular, metadata, content, hListed, hSize, hRead,
        hBlob⟩
      rw [hRegular.1]
      decide

/-- What has been seen after the members are the paths of the file members, each once. -/
theorem members_returns {members : List Member} {state after : Extraction} {result : Unit}
    (h : Routine.Returns (members.forM (extractMember p sha1 u limits skillPath expected artifactRoot)) state result after)
    (hNodup : state.seen.Nodup) : ∃ paths,
      List.Forall₂ (IsExpected sha1 limits skillPath expected)
        (members.filter fun member => member.kind ≠ .directory) paths ∧
      after.seen = paths.reverse ++ state.seen ∧ after.seen.Nodup := by
  induction members generalizing state with
  | nil =>
      obtain ⟨-, rfl⟩ := Routine.returns_pure.mp h
      exact ⟨[], .nil, rfl, hNodup⟩
  | cons member rest ih =>
      obtain ⟨_, middle, hFirst, hRest⟩ := Routine.returns_bind.mp h
      rcases extractMember_returns hFirst with ⟨hKind, hSeen⟩ | ⟨hKind, relative, hNew, hSeen, isExpected⟩
      · obtain ⟨paths, hPaths, hAfter, hDistinct⟩ := ih hRest (hSeen ▸ hNodup)
        rw [List.filter_cons_of_neg (by simp [hKind])]
        exact ⟨paths, hPaths, hSeen ▸ hAfter, hDistinct⟩
      · obtain ⟨paths, hPaths, hAfter, hDistinct⟩ := ih hRest (hSeen ▸ List.nodup_cons.mpr ⟨hNew, hNodup⟩)
        rw [List.filter_cons_of_pos (by simp [hKind])]
        refine ⟨relative :: paths, .cons isExpected hPaths, ?_, hDistinct⟩
        rw [hAfter, hSeen, List.reverse_cons, List.append_assoc, List.singleton_append]

theorem accounts_of_returns {archive : Archive} {disk : Disk} {after : Extraction}
    (h : (extractVerifiedArchive p sha1 u limits skillPath expected artifactRoot archive).Returns ⟨disk, [], []⟩ () after) :
    Accounts sha1 limits skillPath expected archive := by
  simp only [extractVerifiedArchive, Routine.returns_bind, Routine.returns_reading, require_eq_ok] at h
  obtain ⟨_, made, hRoot, _, last, hMembers, _, _, ⟨hIntact, rfl⟩, hSeen, rfl⟩ := h
  have hNone : made.seen = [] := by
    unfold makeRoot Routine.Returns at hRoot
    simp only at hRoot
    split at hRoot
    · split at hRoot
      · cases hRoot
      · cases hRoot
        rfl
    · cases hRoot
  obtain ⟨paths, hPaths, hLast, hDistinct⟩ := members_returns hMembers (hNone ▸ List.nodup_nil)
  rw [hNone, List.append_nil] at hLast
  rw [hLast] at hSeen hDistinct
  refine ⟨hIntact, paths, hPaths, List.nodup_reverse.mp hDistinct, ?_⟩
  intro path
  exact ⟨fun hPath => hSeen.1 path (List.mem_reverse.mpr hPath),
    fun hPath => List.mem_reverse.mp (hSeen.2 path hPath)⟩

/-- A name that does not end in a slash is kept. -/
theorem stripSlashes_eq {name : Text} (h : name.getLast? ≠ some slash) : stripSlashes name = name := by
  rw [stripSlashes]
  cases hReverse : name.reverse with
  | nil =>
      rw [List.reverse_eq_nil_iff.mp hReverse]
      rfl
  | cons point rest =>
      have hPoint : point ≠ slash := by
        rintro rfl
        refine h ?_
        rw [← List.head?_reverse, hReverse]
        rfl
      rw [List.dropWhile_cons_of_neg (by simpa using hPoint), ← hReverse, List.reverse_reverse]

/-- The last character of an admitted path is that of its last name. -/
theorem getLast_of_path {relative : String} (path : ArtifactPath u limits relative)
    (hNames : (PosixPath.ofString relative).names ≠ []) : relative.toList.getLast? ≠ some '/' := by
  have hPosix := path.posix
  rw [PosixPath.asPosix, if_neg fun h => hNames h.2] at hPosix
  obtain ⟨init, last, hSplit⟩ := (List.eq_nil_or_concat _).resolve_left hNames
  have isName := @PosixPath.isName_ofString relative last (by simp [hSplit])
  have hFront : ∃ front, relative = front ++ last := by
    cases init with
    | nil =>
        rw [hSplit, List.concat_eq_append, List.nil_append, PosixPath.join_singleton] at hPosix
        exact ⟨_, hPosix⟩
    | cons first more =>
        rw [hSplit, List.concat_eq_append, PosixPath.join_concat (List.cons_ne_nil first more)] at hPosix
        exact ⟨(PosixPath.ofString relative).root ++ (PosixPath.join (first :: more) ++ "/"),
          hPosix.trans String.append_assoc.symm⟩
  obtain ⟨front, hText⟩ := hFront
  have hLast : last.toList ≠ [] := by simpa using isName.nonempty
  rw [hText, String.toList_append, List.getLast?_append_of_ne_nil _ hLast]
  intro hSlash
  exact isName.noSlash (List.mem_of_getLast? hSlash)

/-- The archive of one file. -/
def fileArchive (skillPath relative : String) (content : Bytes) : Archive where
  members := [{
    name := Text.ofString skillPath ++ slash :: Text.ofString relative
    kind := .regular
    linkname := []
    size := content.length
    extracted := .bytes content }]
  malformed := false

/-- The run over an archive of one file that passes its checks, on a bare disk. -/
theorem extract_one {relative : String} {content : Bytes} (hRoot : artifactRoot ≠ [])
    (hSome : destinationOf artifactRoot relative ≠ []) (hAbove : ¬ destinationOf artifactRoot relative <+: artifactRoot)
    (hCheck : checkMember sha1 u limits skillPath expected [] ⟨Text.ofString skillPath ++ slash :: Text.ofString relative,
      .regular, [], content.length, .bytes content⟩ = .ok (some (relative, content))) :
    ∃ last : Disk, last.at? (destinationOf artifactRoot relative) = some (.file content) ∧
      extractVerifiedArchive p sha1 u limits skillPath expected artifactRoot (fileArchive skillPath relative content)
        ⟨Disk.bare, [], []⟩ =
        (require ((∀ path ∈ [relative], path ∈ expected.map Prod.fst) ∧ ∀ path ∈ expected.map Prod.fst, path ∈ [relative])
          (archiveMismatch "archive file set did not match the verified Git tree"),
          ⟨last, [relative], [(relative, (p.sha256 content).hexdigest)]⟩) := by
  have hBare : ∀ path, Disk.bare.isFree path = true := by
    intro path
    unfold Disk.isFree Disk.bare
    by_cases hPath : path = [] <;> simp [hPath]
  obtain ⟨made, hMade⟩ := Disk.exists_makeDirectories fun front (_ : front <+: artifactRoot) => hBare front
  have hMadeAt := (Disk.makeDirectories_eq_some hMade).2
  have hNone : Disk.bare.at? artifactRoot = none := if_neg hRoot
  have hReturns : (makeRoot artifactRoot).Returns ⟨Disk.bare, [], []⟩ () ⟨made, [], []⟩ := by
    unfold Routine.Returns makeRoot
    simp only [if_pos hNone, hMade]
  -- neither the file nor a directory on the way to it is in the way
  have hFree : ∀ front, front <+: (destinationOf artifactRoot relative).dropLast → made.isFree front = true := by
    intro front _
    have hFile : ∀ bytes, made.at? front ≠ some (.file bytes) := by
      intro bytes hFile
      have hBefore := (Disk.file_makeDirectories hMade).mp hFile
      have hFreeBefore := hBare front
      rw [Disk.isFree, hBefore] at hFreeBefore
      cases hFreeBefore
    unfold Disk.isFree
    split
    · next bytes hFound => exact absurd hFound (hFile bytes)
    · rfl
  obtain ⟨parents, hParents⟩ := Disk.exists_makeDirectories hFree
  have hParentsAt := (Disk.makeDirectories_eq_some hParents).2
  have hShorter : ¬ destinationOf artifactRoot relative <+: (destinationOf artifactRoot relative).dropLast := by
    intro hPrefix
    have hLength := hPrefix.length_le
    have hPositive := List.length_pos_iff.mpr hSome
    rw [List.length_dropLast] at hLength
    omega
  have hAbsent : Disk.bare.at? (destinationOf artifactRoot relative) = none := if_neg hSome
  have hEmpty : parents.at? (destinationOf artifactRoot relative) = none := by
    rw [hParentsAt, if_neg hShorter, hMadeAt, if_neg hAbove, hAbsent]
  obtain ⟨last, hLast⟩ := Disk.exists_createFile content
    ⟨hEmpty, (hParentsAt _).trans (if_pos (List.prefix_refl _))⟩
  have hMember : (extractMember p sha1 u limits skillPath expected artifactRoot
      ⟨Text.ofString skillPath ++ slash :: Text.ofString relative, .regular, [], content.length, .bytes content⟩).Returns
        ⟨made, [], []⟩ () ⟨last, [relative], [(relative, (p.sha256 content).hexdigest)]⟩ := by
    refine Routine.returns_bind.mpr ⟨_, _, Routine.returns_reading.mpr ⟨hCheck, rfl⟩, ?_⟩
    unfold Routine.Returns saveFile
    simp only [hParents, hLast]
  have hMembers : Routine.Returns ((fileArchive skillPath relative content).members.forM
      (extractMember p sha1 u limits skillPath expected artifactRoot)) ⟨made, [], []⟩ ()
        ⟨last, [relative], [(relative, (p.sha256 content).hexdigest)]⟩ :=
    Routine.returns_bind.mpr ⟨_, _, hMember, Routine.returns_pure.mpr ⟨rfl, rfl⟩⟩
  refine ⟨last, ((Disk.createFile_eq_some hLast).2 _).trans (if_pos rfl), ?_⟩
  rw [extractVerifiedArchive, Routine.bind_of_returns hReturns, Routine.bind_of_returns hMembers]
  rfl

/-- An expected file that leads away is written away from the artifact root. -/
theorem not_confined {relative : String} {metadata : Metadata} {content : Bytes}
    (away : LeadsAway sha1 u limits expected artifactRoot relative metadata content) :
    ¬ Confined artifactRoot Disk.bare (extractVerifiedArchive p sha1 u limits skillPath expected artifactRoot
      (fileArchive skillPath relative content) ⟨Disk.bare, [], []⟩).2.disk := by
  have hDestination : destinationOf artifactRoot relative = (PosixPath.ofString relative).names := if_neg away.absolute
  have hNames : (PosixPath.ofString relative).names ≠ [] := by
    intro hNone
    refine away.above ?_
    rw [hDestination, hNone]
    exact List.nil_prefix
  have hRoot : artifactRoot ≠ [] := by
    rintro rfl
    exact away.below List.nil_prefix
  -- the check lets the member through
  have hName : stripSlashes (Text.ofString skillPath ++ slash :: Text.ofString relative) =
      Text.ofString skillPath ++ slash :: Text.ofString relative := by
    refine stripSlashes_eq ?_
    have hLast := getLast_of_path away.path hNames
    cases hText : relative.toList.getLast? with
    | none =>
        rw [List.getLast?_eq_none_iff] at hText
        exact absurd (String.toList_inj.mp hText) away.path.portable.1
    | some c =>
        have hOther : c ≠ '/' := fun hSame => hLast (hSame ▸ hText)
        have hSome : Text.ofString relative ≠ [] := by
          intro hNone
          rw [List.map_eq_nil_iff.mp hNone] at hText
          cases hText
        rw [← List.singleton_append, ← List.append_assoc, List.getLast?_append_of_ne_nil _ hSome, Text.ofString,
          List.getLast?_map, hText]
        intro hSlash
        exact hOther (Point.char.inj (Option.some.inj hSlash))
  have hCheck : checkMember sha1 u limits skillPath expected [] ⟨Text.ofString skillPath ++ slash :: Text.ofString relative,
      .regular, [], content.length, .bytes content⟩ = .ok (some (relative, content)) := by
    refine checkMember_eq_ok_some.mpr ⟨hName, ⟨rfl, rfl⟩, away.path, metadata, away.listed, ⟨by simp, ?_⟩, ?_, away.blob⟩
    · exact congrArg Int.ofNat away.size.1
    · exact readMember_eq_ok_iff.mpr ⟨content, rfl, (List.take_of_length_le away.size.2).symm, rfl⟩
  have hAbsent : Disk.bare.at? (destinationOf artifactRoot relative) = none := if_neg (hDestination ▸ hNames)
  obtain ⟨last, hFile, hRun⟩ := @extract_one p sha1 u limits skillPath expected artifactRoot relative content hRoot
    (hDestination ▸ hNames) away.above hCheck
  rw [hRun]
  intro confined
  rcases confined (destinationOf artifactRoot relative) (by rw [hFile, hAbsent]; simp) with hBelow | ⟨hAbove, -⟩
  · exact away.below hBelow
  · exact away.above hAbove

/-- An extraction keeps to the artifact root and leaves exactly the expected files there, on every
disk and with every archive, when no expected file has an absolute path that leads away from it. -/
theorem extracts_iff (p : Platform) (sha1 : Bytes → Bytes) (u : Unicode) (limits : ScanLimits) (skillPath : String)
    (expected : List (String × Metadata)) (artifactRoot : List String) :
    Extracts p sha1 u limits skillPath expected artifactRoot ↔
      ∀ relative metadata content, ¬ LeadsAway sha1 u limits expected artifactRoot relative metadata content := by
  constructor
  · intro extracts relative metadata content away
    exact not_confined away (extracts.confined _ _)
  · intro hKept
    have hInside := fun archive disk => @extract_inside p sha1 u limits skillPath expected artifactRoot hKept archive disk
    refine ⟨?_, ?_, fun _ _ _ h => accounts_of_returns h⟩
    · intro archive disk
      have hOutcome := hInside archive disk ⟨disk, [], []⟩ rfl
      cases hRun : extractVerifiedArchive p sha1 u limits skillPath expected artifactRoot archive ⟨disk, [], []⟩ with
      | mk outcome after =>
          rw [hRun] at hOutcome
          cases outcome with
          | ok _ => exact hOutcome.1.confined
          | error _ => exact hOutcome
    · intro archive disk after h
      obtain ⟨inside, hSeen⟩ := (hInside archive disk).returns rfl h
      exact exact_of_inside inside hSeen

end

/-- An absolute path below the skill path passes the check, and its file is written there. -/
theorem absolute_written : ¬ ∃ (p : Platform) (sha1 : Bytes → Bytes), Confined ["tmp", "skill"] Disk.bare
    (extractVerifiedArchive p sha1 asciiUnicode {} "skill" [("/etc/x", ⟨1, gitBlob sha1 [65], "100644"⟩)] ["tmp", "skill"]
      (fileArchive "skill" "/etc/x" [65]) ⟨Disk.bare, [], []⟩).2.disk := by
  rintro ⟨p, sha1, confined⟩
  have hPath : validateArtifactRelative asciiUnicode {} "/etc/x" = .ok "/etc/x" := by decide +kernel
  have hAbsolute : (PosixPath.ofString "/etc/x").root ≠ "" := by decide +kernel
  have hBelow : ¬ ["tmp", "skill"] <+: destinationOf ["tmp", "skill"] "/etc/x" := by decide +kernel
  have hAbove : ¬ destinationOf ["tmp", "skill"] "/etc/x" <+: ["tmp", "skill"] := by decide +kernel
  exact not_confined ⟨rfl, (validateArtifactRelative_eq_ok_iff.mp hPath).1, hAbsolute, hBelow, hAbove, ⟨rfl, by decide⟩, rfl⟩
    confined

end StageB

end VouchSpec
