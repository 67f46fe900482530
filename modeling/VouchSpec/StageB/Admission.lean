import VouchSpec.Commerce.RequestSchema
import VouchSpec.Inspection.Completeness
import VouchSpec.Inspection.Ways
import VouchSpec.StageB.Listing

/-! The limits of a listing beside those of the capture of what is extracted from it:
a listing counts the directories without the root, and compares only the files. -/

namespace VouchSpec

namespace StageB

open Inspection

/-- What Unicode says of texts in NFC and of case folding. -/
structure Documented (u : Unicode) : Prop where
  casefold_lower : ∀ value, (∀ c ∈ value.toList, c.toNat < 128 ∧ ¬ (65 ≤ c.toNat ∧ c.toNat ≤ 90)) →
    u.casefold value = value
  nfc_ascii : ∀ value, (∀ c ∈ value.toList, c.toNat < 128) → u.normalizeNfc value = value
  nfc_start : ∀ first rest, u.normalizeNfc (first ++ rest) = first ++ rest → u.normalizeNfc first = first

def isDirectory (found : List String × Entry) : Bool :=
  match found.2 with
  | .directory _ => true
  | _ => false

/-- A tree of exactly the listed files: its entries are files and directories with names of
their own, and each leads to a file. -/
structure Holds (tree : Entry) (expected : List (String × Metadata)) : Prop where
  plain : ∀ found ∈ tree.ways, found.2.IsPlain
  named : ∀ found ∈ tree.ways, ∀ name ∈ found.1, PosixPath.IsName name
  distinct : (tree.ways.map Prod.fst).Nodup
  inhabited : ∀ found ∈ tree.ways, ∃ leaf ∈ tree.ways, isDirectory leaf = false ∧ found.1 <+: leaf.1
  files : (tree.ways.filterMap leaf?).Perm (expected.map fun entry => (entry.1, entry.2.size))

/-- The directories above a listed file. -/
def parentsOf (relative : String) : List String :=
  ((PosixPath.ofString relative).parent.climb (PosixPath.ofString relative).names.length).getD []

/-- The directories of a listing, other than its root. -/
def directoriesOf (expected : List (String × Metadata)) : List String :=
  (expected.flatMap fun entry => parentsOf entry.1).dedup

/-- No two paths of a listing fold to one text, directories included. -/
def Collisionless (u : Unicode) (expected : List (String × Metadata)) : Prop :=
  ((expected.map Prod.fst ++ directoriesOf expected).map u.casefold).Nodup

instance (u : Unicode) (expected : List (String × Metadata)) : Decidable (Collisionless u expected) :=
  inferInstanceAs (Decidable (List.Nodup _))

theorem leaf?_isSome {found : List String × Entry} (hPlain : found.2.IsPlain) (hFile : isDirectory found = false) :
    ∃ content : Bytes, found.2 = .file 1 content ∧ leaf? found = some (PosixPath.join found.1, content.length) := by
  obtain ⟨names, entry⟩ := found
  cases entry with
  | link => cases hPlain
  | special => cases hPlain
  | directory entries => cases hFile
  | file links content =>
      obtain rfl : links = 1 := hPlain
      exact ⟨content, rfl, rfl⟩

theorem leaf?_directory {found : List String × Entry} (h : isDirectory found = true) : leaf? found = none := by
  obtain ⟨names, entry⟩ := found
  cases entry <;> first | rfl | cases h

/-- The entries are the files and the directories. -/
theorem perm_files_directories {found : List (List String × Entry)} (hPlain : ∀ one ∈ found, one.2.IsPlain) :
    (found.map fun one => PosixPath.join one.1).Perm
      ((found.filterMap leaf?).map Prod.fst ++ (found.filter isDirectory).map fun one => PosixPath.join one.1) := by
  induction found with
  | nil => exact .refl _
  | cons first rest ih =>
      have hRest := ih fun one hOne => hPlain one (List.mem_cons_of_mem _ hOne)
      cases hDirectory : isDirectory first with
      | true =>
          rw [List.map_cons, List.filterMap_cons_none (leaf?_directory hDirectory), List.filter_cons_of_pos hDirectory,
            List.map_cons]
          exact (hRest.cons _).trans List.perm_middle.symm
      | false =>
          obtain ⟨content, -, hLeaf⟩ := leaf?_isSome (hPlain first List.mem_cons_self) hDirectory
          rw [List.map_cons, List.filterMap_cons_some hLeaf, List.filter_cons_of_neg (by simp [hDirectory]),
            List.map_cons, List.cons_append]
          exact hRest.cons _

section
variable {u : Unicode} {limits : ScanLimits} {tree : Entry} {expected : List (String × Metadata)}

/-- A listed path by its names. -/
structure Named (u : Unicode) (limits : ScanLimits) (relative : String) (names : List String) : Prop where
  parsed : PosixPath.ofString relative = ⟨"", names⟩
  present : names ≠ []
  valid : ∀ name ∈ names, PosixPath.IsName name ∧ Component u name
  joined : relative = PosixPath.join names
  path : ArtifactPath u limits relative
  depth : names.length ≤ limits.maxDepth

theorem named_of_listed {relative : String} (path : ArtifactPath u limits relative)
    (hRoot : (PosixPath.ofString relative).root = "") :
    Named u limits relative (PosixPath.ofString relative).names := by
  have hParts : (PosixPath.ofString relative).parts = (PosixPath.ofString relative).names := if_pos hRoot
  have hPresent := path.present
  have hPosix := path.posix
  rw [hParts] at hPresent
  rw [PosixPath.asPosix, if_neg fun h => hPresent h.2, hRoot, String.empty_append] at hPosix
  refine ⟨?_, hPresent, ?_, hPosix, path, hParts ▸ path.depth⟩
  · rw [← hRoot]
  · intro name hName
    exact ⟨PosixPath.isName_ofString hName, path.components name (hParts ▸ hName)⟩

/-- The beginnings of a listed path are its directories. -/
theorem mem_parentsOf {relative path : String} {names : List String} (named : Named u limits relative names) :
    path ∈ parentsOf relative ↔ ∃ front, front ≠ [] ∧ front <+: names.dropLast ∧ path = PosixPath.join front := by
  obtain ⟨paths, hPaths, hMember⟩ := @PosixPath.climb_relative names.dropLast
    (fun name hName => (named.valid name (List.mem_of_mem_dropLast hName)).1) names.length
    (by rw [List.length_dropLast]; omega)
  have hParents : parentsOf relative = paths := by
    rw [parentsOf, named.parsed, PosixPath.parent, hPaths]
    rfl
  rw [hParents, hMember]

/-- A path of rules that a beginning of a listed path keeps. -/
theorem rules_of_front (documented : Documented u) {relative : String} {names front : List String}
    (named : Named u limits relative names) (hFront : front ≠ []) (hPrefix : front <+: names) :
    PathRules u limits (PosixPath.join front) := by
  obtain ⟨back, rfl⟩ := hPrefix
  obtain ⟨rest, hRest⟩ := PosixPath.join_append hFront back
  have hText : relative = PosixPath.join front ++ rest := named.joined.trans hRest
  have path := named.path
  rw [hText] at path
  have hCharacter : ∀ c ∈ (PosixPath.join front).toList, c ∈ (PosixPath.join front ++ rest).toList := by
    intro c hC
    rw [String.toList_append]
    exact List.mem_append_left _ hC
  constructor
  · exact PosixPath.join_ne_empty hFront fun name hName =>
      (named.valid name (List.mem_append_left _ hName)).1.nonempty
  · have hBytes := path.bytes
    rw [String.toList_append, Bytes.utf8_append, List.length_append] at hBytes
    omega
  · exact documented.nfc_start _ _ path.normalized
  · intro c hC
    have hMember := hCharacter c hC
    refine ⟨?_, path.characters c hMember⟩
    intro hBackslash
    have hSame : c = Char.ofNat 92 := by rw [← hBackslash, Char.ofNat_toNat]
    exact path.portable.2.1 (hSame ▸ hMember)

end

section
variable {u : Unicode} {limits : ScanLimits} {tree : Entry} {listing : Listing}

/-- Every entry of the tree lies on the way to a listed file, or is one. -/
theorem Holds.listed (holds : Holds tree listing.expected) (sound : listing.Sound u limits)
    {found : List String × Entry} (hFound : found ∈ tree.ways) :
    ∃ leaf ∈ tree.ways, isDirectory leaf = false ∧ found.1 <+: leaf.1 ∧ ∃ entry ∈ listing.expected,
      entry.1 = PosixPath.join leaf.1 ∧ Named u limits entry.1 leaf.1 := by
  obtain ⟨leaf, hLeaf, hFile, hPrefix⟩ := holds.inhabited found hFound
  obtain ⟨content, -, hSome⟩ := leaf?_isSome (holds.plain leaf hLeaf) hFile
  have hMember := holds.files.mem_iff.mp (List.mem_filterMap.mpr ⟨leaf, hLeaf, hSome⟩)
  obtain ⟨entry, hEntry, hSame⟩ := List.mem_map.mp hMember
  have hPath : entry.1 = PosixPath.join leaf.1 := congrArg Prod.fst hSame
  have named := named_of_listed (sound.paths entry hEntry) (sound.relative entry hEntry)
  have hNames : (PosixPath.ofString entry.1).names = leaf.1 := by
    rw [hPath, PosixPath.ofString_join (ways_ne_nil hLeaf) (holds.named leaf hLeaf)]
  rw [hNames] at named
  exact ⟨leaf, hLeaf, hFile, hPrefix, entry, hEntry, hPath, named⟩

theorem Holds.kept (documented : Documented u) (holds : Holds tree listing.expected) (sound : listing.Sound u limits) :
    ∀ found ∈ tree.ways, ∀ name ∈ found.1, isExcluded name = false := by
  intro found hFound name hName
  obtain ⟨leaf, -, -, hPrefix, entry, -, -, named⟩ := holds.listed sound hFound
  have component := (named.valid name (hPrefix.subset hName)).2
  rw [isExcluded, decide_eq_false_iff_not]
  intro hExcluded
  have hFolded : u.casefold name = name := by
    have hLower : (excludedDirectoryNames.all fun name => name.toList.all fun c =>
        decide (c.toNat < 128 ∧ ¬ (65 ≤ c.toNat ∧ c.toNat ≤ 90))) = true := by decide
    refine documented.casefold_lower name ?_
    intro c hC
    exact of_decide_eq_true (List.all_eq_true.mp (List.all_eq_true.mp hLower name hExcluded) c hC)
  exact component.notReserved.2 (hFolded.symm ▸ hExcluded)

theorem Holds.relative (holds : Holds tree listing.expected) {found : List String × Entry} (hFound : found ∈ tree.ways) :
    (itemAt "" 0 found).relative = PosixPath.join found.1 :=
  foldl_childPath (ways_ne_nil hFound) fun name hName => (holds.named found hFound name hName).nonempty

/-- The paths of the entries are distinct, since the names on the way to them are. -/
theorem Holds.nodup (holds : Holds tree listing.expected) :
    (tree.ways.map fun found => PosixPath.join found.1).Nodup := by
  have hJoined : (tree.ways.map Prod.fst).map PosixPath.join = tree.ways.map fun found => PosixPath.join found.1 := by
    rw [List.map_map]
    rfl
  rw [← hJoined]
  refine List.Nodup.map_on ?_ holds.distinct
  intro names hNames others hOthers hSame
  obtain ⟨found, hFound, rfl⟩ := List.mem_map.mp hNames
  obtain ⟨other, hOther, rfl⟩ := List.mem_map.mp hOthers
  exact PosixPath.join_inj (ways_ne_nil hFound) (holds.named found hFound) (ways_ne_nil hOther)
    (holds.named other hOther) hSame

/-- The directories of the tree are those above the listed files. -/
theorem Holds.directories (holds : Holds tree listing.expected) (sound : listing.Sound u limits) :
    ((tree.ways.filter isDirectory).map fun found => PosixPath.join found.1).Perm (directoriesOf listing.expected) := by
  refine (List.perm_ext_iff_of_nodup (holds.nodup.sublist ((List.filter_sublist).map _)) (List.nodup_dedup _)).mpr ?_
  intro path
  rw [List.mem_dedup, List.mem_flatMap]
  constructor
  · intro hPath
    obtain ⟨found, hMember, rfl⟩ := List.mem_map.mp hPath
    obtain ⟨hFound, hDirectory⟩ := List.mem_filter.mp hMember
    obtain ⟨leaf, hLeaf, hFile, hPrefix, entry, hEntry, -, named⟩ := holds.listed sound hFound
    refine ⟨entry, hEntry, (mem_parentsOf named).mpr ⟨found.1, ways_ne_nil hFound, ?_, rfl⟩⟩
    have hProper : found.1 ≠ leaf.1 := by
      intro hSame
      have hOne := List.inj_on_of_nodup_map holds.distinct hFound hLeaf hSame
      rw [hOne, hFile] at hDirectory
      cases hDirectory
    have hLength : found.1.length < leaf.1.length :=
      lt_of_le_of_ne hPrefix.length_le fun hSame => hProper (hPrefix.eq_of_length hSame)
    refine List.prefix_of_prefix_length_le hPrefix (List.dropLast_prefix _) ?_
    rw [List.length_dropLast]
    omega
  · rintro ⟨entry, hEntry, hParent⟩
    have hListed : (entry.1, entry.2.size) ∈ tree.ways.filterMap leaf? :=
      holds.files.mem_iff.mpr (List.mem_map.mpr ⟨entry, hEntry, rfl⟩)
    obtain ⟨leaf, hLeaf, hSome⟩ := List.mem_filterMap.mp hListed
    have hFile : isDirectory leaf = false := by
      rw [← Bool.not_eq_true]
      intro hDirectory
      rw [leaf?_directory hDirectory] at hSome
      cases hSome
    obtain ⟨content, -, hLeafSome⟩ := leaf?_isSome (holds.plain leaf hLeaf) hFile
    have hPath : PosixPath.join leaf.1 = entry.1 := by
      rw [hLeafSome] at hSome
      exact congrArg Prod.fst (Option.some.inj hSome)
    have named := named_of_listed (sound.paths entry hEntry) (sound.relative entry hEntry)
    obtain ⟨front, hFront, hPrefix, rfl⟩ := (mem_parentsOf named).mp hParent
    rw [← hPath, PosixPath.ofString_join (ways_ne_nil hLeaf) (holds.named leaf hLeaf)] at hPrefix
    -- the way to the file is longer, and what it passes is a directory
    obtain ⟨back, hBack⟩ := hPrefix
    obtain ⟨names, found⟩ := leaf
    have hNames : names ≠ [] := ways_ne_nil hLeaf
    have hWay : front ++ (back ++ [names.getLast hNames]) = names := by
      rw [← List.append_assoc, hBack, List.dropLast_append_getLast]
    have hDirectory := ways_front hFront (by simp) (hWay.symm ▸ hLeaf)
    exact List.mem_map.mpr ⟨_, List.mem_filter.mpr ⟨hDirectory, rfl⟩, rfl⟩

theorem Holds.contents (documented : Documented u) (holds : Holds tree listing.expected) (sound : listing.Sound u limits) :
    tree.contents "" 0 = tree.ways.map (itemAt "" 0) :=
  contents_eq_ways "" 0 (holds.kept documented sound)

theorem Holds.regularFiles (documented : Documented u) (holds : Holds tree listing.expected)
    (sound : listing.Sound u limits) : (tree.regularFiles.map fun file => (file.1, file.2.length)).Perm
      (listing.expected.map fun entry => (entry.1, entry.2.size)) := by
  have hLeaves : tree.regularFiles.map (fun file => (file.1, file.2.length)) = tree.ways.filterMap leaf? := by
    rw [Entry.regularFiles, holds.contents documented sound, List.filterMap_map, List.map_filterMap]
    refine List.filterMap_congr ?_
    intro found hFound
    have hRelative := holds.relative hFound
    obtain ⟨names, entry⟩ := found
    cases entry with
    | file links content =>
        show some ((itemAt "" 0 (names, Entry.file links content)).relative, content.length) =
          some (PosixPath.join names, content.length)
        rw [hRelative]
    | link => rfl
    | special => rfl
    | directory entries => rfl
  rw [hLeaves]
  exact holds.files

theorem isListed_itemAt (documented : Documented u) (holds : Holds tree listing.expected)
    (sound : listing.Sound u limits) {found : List String × Entry} (hFound : found ∈ tree.ways) :
    (itemAt "" 0 found).isListed = isDirectory found := by
  have hNames := ways_ne_nil hFound
  have hKept := holds.kept documented sound found hFound (found.1.getLast hNames) (List.getLast_mem hNames)
  obtain ⟨names, entry⟩ := found
  cases entry with
  | directory entries =>
      show (!isExcluded (names.getLast?.getD "")) = true
      rw [List.getLast?_eq_some_getLast hNames, Option.getD_some, hKept]
      rfl
  | file links content => rfl
  | link => rfl
  | special => rfl

/-- What a capture counts of the tree is what the listing has counted, and the root. -/
theorem Holds.fits_iff (documented : Documented u) (holds : Holds tree listing.expected) (sound : listing.Sound u limits)
    (hEntries : limits.maxFiles + limits.maxDirectories ≤ limits.maxEntries + 1) {rootName : String}
    (hRoot : PathRules u limits rootName ∧ rootName.toList.length ≤ 255) : Fits u limits rootName tree ↔
      (directoriesOf listing.expected).length + 1 ≤ limits.maxDirectories ∧ Collisionless u listing.expected := by
  have hContents := holds.contents documented sound
  have hFiles := holds.regularFiles documented sound
  have hDirectories := holds.directories sound
  have hPaths : (tree.ways.map fun found => PosixPath.join found.1).Perm
      (listing.expected.map Prod.fst ++ directoriesOf listing.expected) := by
    refine (perm_files_directories holds.plain).trans (.append ?_ hDirectories)
    have hFst := holds.files.map Prod.fst
    rwa [List.map_map] at hFst
  have hListed : ((tree.contents "" 0).filter Item.isListed).length = (directoriesOf listing.expected).length := by
    have hSame : tree.ways.filter (Item.isListed ∘ itemAt "" 0) = tree.ways.filter isDirectory :=
      List.filter_congr fun found hFound => isListed_itemAt documented holds sound hFound
    rw [hContents, List.filter_map, List.length_map, hSame, ← hDirectories.length_eq, List.length_map]
  have hFolded : ((tree.contents "" 0).map fun item => u.casefold item.relative).Perm
      ((listing.expected.map Prod.fst ++ directoriesOf listing.expected).map u.casefold) := by
    have hSame : (tree.contents "" 0).map (fun item => u.casefold item.relative) =
        (tree.ways.map fun found => PosixPath.join found.1).map u.casefold := by
      rw [hContents, List.map_map, List.map_map]
      exact List.map_congr_left fun found hFound => congrArg u.casefold (holds.relative hFound)
    rw [hSame]
    exact hPaths.map _
  have hCount : (tree.contents "" 0).length = listing.expected.length + (directoriesOf listing.expected).length := by
    have hLength := hPaths.length_eq
    rw [List.length_map, List.length_append, List.length_map] at hLength
    rw [hContents, List.length_map, hLength]
  have hFront : ∀ item ∈ tree.contents "" 0, ∃ relative names front, Named u limits relative names ∧ front ≠ [] ∧
      front <+: names ∧ item.relative = PosixPath.join front ∧ item.depth + 1 = front.length := by
    intro item hItem
    rw [hContents] at hItem
    obtain ⟨found, hFound, rfl⟩ := List.mem_map.mp hItem
    obtain ⟨leaf, -, -, hPrefix, entry, -, -, named⟩ := holds.listed sound hFound
    have hSome := ways_ne_nil hFound
    refine ⟨_, _, _, named, hSome, hPrefix, holds.relative hFound, ?_⟩
    have hPositive := List.length_pos_iff.mpr hSome
    show 0 + found.1.length - 1 + 1 = found.1.length
    omega
  have hFile : ∀ file ∈ tree.regularFiles, ∃ entry ∈ listing.expected, entry.1 = file.1 ∧ entry.2.size = file.2.length := by
    intro file hMember
    obtain ⟨entry, hEntry, hSame⟩ := List.mem_map.mp (hFiles.mem_iff.mp (List.mem_map_of_mem hMember))
    exact ⟨entry, hEntry, (Prod.mk.inj hSame).1, (Prod.mk.inj hSame).2⟩
  have hFileCount := hFiles.length_eq
  rw [List.length_map, List.length_map] at hFileCount
  have hTotal : totalOf tree.regularFiles = listing.totalBytes := by
    have hSum := (hFiles.map Prod.snd).sum_eq
    rw [List.map_map, List.map_map] at hSum
    rw [sound.totalBytes]
    exact hSum
  constructor
  · intro fits
    exact ⟨hListed ▸ fits.directories, hFolded.nodup_iff.mp fits.collisions⟩
  · rintro ⟨hFew, hCollisions⟩
    have hMost := sound.count
    constructor
    · exact hRoot
    · omega
    · rw [hListed]
      exact hFew
    · intro item hItem _
      obtain ⟨relative, names, front, named, -, hPrefix, -, hDepth⟩ := hFront item hItem
      rw [hDepth]
      exact hPrefix.length_le.trans named.depth
    · intro item hItem
      obtain ⟨relative, names, front, named, hSome, hPrefix, hPath, -⟩ := hFront item hItem
      rw [hPath]
      exact rules_of_front documented named hSome hPrefix
    · exact hFolded.nodup_iff.mpr hCollisions
    · rw [hFileCount]
      exact hMost
    · intro file hMember
      obtain ⟨entry, hEntry, -, hSize⟩ := hFile file hMember
      exact hSize ▸ sound.sizes entry hEntry
    · intro file hMember hSkill
      obtain ⟨entry, hEntry, hPath, hSize⟩ := hFile file hMember
      exact hSize ▸ sound.skill entry hEntry (hPath.trans hSkill)
    · rw [hTotal]
      exact sound.total

end

/-- The name of a skill path is one that the root of a capture can have. -/
theorem rules_of_name {u : Unicode} (documented : Documented u) {skillPath : String}
    (hRequest : validateSkillPath (.str skillPath) = .ok skillPath) :
    PathRules u {} (PosixPath.ofString skillPath).name ∧ (PosixPath.ofString skillPath).name.toList.length ≤ 255 := by
  obtain ⟨-, -, parts, path⟩ := RequestSchema.validateSkillPath_eq_ok.mp hRequest
  have hNames : (PosixPath.ofString skillPath).names = parts.map String.ofList := by
    rw [← path.pathParts, pathParts, PosixPath.ofString, PosixPath.segments, List.filter_map]
    refine congrArg _ (List.filter_congr ?_)
    intro part _
    have hSame : ∀ text : String, String.ofList part = text ↔ part = text.toList := by
      intro text
      rw [← String.toList_inj, String.toList_ofList]
    have hEmpty : String.ofList part = "" ↔ part = [] := hSame ""
    have hDot : String.ofList part = "." ↔ part = ['.'] := hSame "."
    simp only [Function.comp_apply, ne_eq, hEmpty, hDot]
  have hLast : parts.getLast path.present ∈ parts := List.getLast_mem path.present
  have hName : (PosixPath.ofString skillPath).name = String.ofList (parts.getLast path.present) := by
    rw [PosixPath.name, hNames, List.getLast?_map, List.getLast?_eq_some_getLast path.present]
    rfl
  obtain ⟨hSome, hShort, -, hCharacters⟩ := RequestSchema.mem_segment (path.segments _ hLast)
  have hAscii : ∀ c ∈ parts.getLast path.present, c.toNat < 128 := fun c hC =>
    (RequestSchema.segmentCharacter (hCharacters c hC)).2.2.2
  rw [hName]
  refine ⟨⟨?_, ?_, ?_, ?_⟩, ?_⟩
  · simpa [← String.toList_inj] using hSome
  · rw [String.toList_ofList, Bytes.utf8_length_of_ascii hAscii]
    exact hShort.trans (by decide)
  · exact documented.nfc_ascii _ (by simpa using hAscii)
  · intro c hC
    have hSegment := hCharacters c (by simpa using hC)
    simp only [RequestSchema.isSegmentCharacter, Pattern.isAlnum, Pattern.isDot, Pattern.isUnderscore, Pattern.isHyphen,
      Bool.or_eq_true, Bool.and_eq_true, decide_eq_true_eq] at hSegment
    omega
  · rw [String.toList_ofList]
    exact hShort.trans (by decide)

/-- The tree of a listing that is accepted under the default limits is captured, with exactly
the listed files, when it has at most 255 directories besides its root and no two of its
paths fold to one text. -/
theorem listing_collected_iff {p : Platform} {u : Unicode} (documented : Documented u) {skillPath : String}
    (hRequest : validateSkillPath (.str skillPath) = .ok skillPath) {raw : Bytes} {expected : List (String × Metadata)}
    (hListing : parseTreeListing u {} skillPath raw = .ok expected) {entries : List (String × Entry)}
    (holds : Holds (.directory entries) expected) {root : List String}
    (hRoot : root.getLast? = some (PosixPath.ofString skillPath).name) (times : CaptureTimes) :
    (∃ snapshot, collectSnapshot u {} p root (some (.directory entries)) times = .ok snapshot ∧
      (snapshot.files.map fun file => (file.path, file.size)).Perm
        (expected.map fun entry => (entry.1, entry.2.size))) ↔
      (directoriesOf expected).length ≤ 255 ∧ Collisionless u expected := by
  obtain ⟨listing, sound, rfl, -⟩ := sound_of_parseTreeListing hListing
  have hRules := rules_of_name documented hRequest
  have hName : root.getLast?.getD "" = (PosixPath.ofString skillPath).name := by
    rw [hRoot]
    rfl
  have hPlain : ∀ item ∈ (Entry.directory entries).contents "" 0, item.entry.IsPlain := by
    rw [holds.contents documented sound]
    intro item hItem
    obtain ⟨found, hFound, rfl⟩ := List.mem_map.mp hItem
    exact holds.plain found hFound
  have hFits := holds.fits_iff documented sound (by decide) hRules
  rw [← hName, ← @collected_iff_fits p u {} root entries times hPlain] at hFits
  have hLength : (directoriesOf listing.expected).length ≤ 255 ↔
      (directoriesOf listing.expected).length + 1 ≤ ({} : ScanLimits).maxDirectories := by
    show _ ↔ _ + 1 ≤ 256
    omega
  rw [hLength, ← hFits]
  constructor
  · rintro ⟨snapshot, hSnapshot, -⟩
    exact ⟨snapshot, hSnapshot⟩
  · rintro ⟨snapshot, hSnapshot⟩
    refine ⟨snapshot, hSnapshot, ?_⟩
    have captured := captures_of_collectSnapshot hSnapshot
    have hSizes : snapshot.files.map (fun file => (file.path, file.size)) =
        (snapshot.files.map fun file => (file.path, file.content)).map fun file => (file.1, file.2.length) := by
      rw [List.map_map]
      refine List.map_congr_left fun file hFile => ?_
      exact congrArg (fun size => (file.path, size)) (congrArg FileData.size (captured.sizes file hFile))
    rw [hSizes]
    exact (captured.files.map _).trans (holds.regularFiles documented sound)

theorem documented_ascii : Documented asciiUnicode := by
  refine ⟨?_, fun _ _ => rfl, fun _ _ _ => rfl⟩
  intro value hLower
  have hSame : value.toList.map Char.toLower = value.toList.map id := by
    refine List.map_congr_left fun c hC => ?_
    have hCode := (hLower c hC).2
    exact dif_neg fun hUpper => hCode ⟨hUpper.1, hUpper.2⟩
  show String.ofList (value.toList.map Char.toLower) = value
  rw [hSame, List.map_id, String.ofList_toList]

/-- Forty digits of a blob identity. -/
def sampleOid : String := "8c7e5a667f1b771847fe88c01c3de34413a1b220"

def sampleHeader : Bytes := Bytes.ascii ("100644 blob " ++ sampleOid ++ " 1")

/-- The record of a file with one byte. -/
def sampleRecord (relative : String) : Bytes :=
  sampleHeader ++ 9 :: Bytes.utf8 ("skill".toList ++ '/' :: relative.toList)

def sampleRaw (paths : List String) : Bytes := paths.flatMap fun relative => sampleRecord relative ++ [0]

def sampleMetadata : Metadata := { size := 1, gitBlobSha1 := sampleOid, gitMode := "100644" }

theorem parseRecord_sample {relative : String} (path : validateArtifactRelative asciiUnicode {} relative = .ok relative)
    (listing : Listing) : listing.parseRecord asciiUnicode {} "skill" (sampleRecord relative) =
      listing.add asciiUnicode .default relative 1 sampleOid "100644" := by
  have hFields : four? (fieldsOf sampleHeader) =
      some (Bytes.ascii "100644", Bytes.ascii "blob", Bytes.ascii sampleOid, Bytes.ascii "1") := by decide +kernel
  have hOid : textOf (Bytes.ascii sampleOid) = sampleOid := by decide +kernel
  have hMode : textOf (Bytes.ascii "100644") = "100644" := by decide +kernel
  have hSize : intOf? (Bytes.ascii "1") = some 1 := by decide +kernel
  have hTab : (9 : UInt8) ∉ sampleHeader := by decide +kernel
  have hRecord := @parseRecord_eq asciiUnicode {} "skill" listing sampleHeader (Bytes.ascii "100644")
    (Bytes.ascii sampleOid) (Bytes.ascii "1") relative 1 hTab hFields List.mem_cons_self hSize (by decide +kernel)
    (validateArtifactRelative_eq_ok_iff.mp path).1
  rwa [hOid, hMode] at hRecord

instance (entry : Entry) : Decidable entry.IsPlain :=
  match entry with
  | .link => isFalse id
  | .special => isFalse id
  | .file links _ => inferInstanceAs (Decidable (links = 1))
  | .directory _ => isTrue trivial

instance (name : String) : Decidable (PosixPath.IsName name) :=
  decidable_of_iff (name ≠ "" ∧ name ≠ "." ∧ '/' ∉ name.toList)
    ⟨fun h => ⟨h.1, h.2.1, h.2.2⟩, fun h => ⟨h.nonempty, h.notDot, h.noSlash⟩⟩

def addSample (listing : Listing) (relative : String) : Except Failure Listing :=
  listing.add asciiUnicode .default relative 1 sampleOid "100644"

theorem parse_samples {paths : List String}
    (hRecords : ((sampleRaw paths).splitOn 0).filter (fun record => record ≠ []) = paths.map sampleRecord)
    (hPaths : ∀ relative ∈ paths, validateArtifactRelative asciiUnicode {} relative = .ok relative) :
    parseTreeListing asciiUnicode {} "skill" (sampleRaw paths) = (do
      let listing ← paths.foldlM addSample {}
      require (listing.expected ≠ [] ∧ "SKILL.md" ∈ listing.expected.map Prod.fst)
        (.raised (rejected "requested directory has no tracked SKILL.md" "source_scope_invalid"))
      return listing.expected) := by
  have hLoop : ∀ listing : Listing,
      (paths.map sampleRecord).foldlM (Listing.parseRecord asciiUnicode {} "skill") listing =
        paths.foldlM addSample listing := by
    clear hRecords
    induction paths with
    | nil => exact fun _ => rfl
    | cons relative rest ih =>
        intro listing
        rw [List.map_cons, List.foldlM_cons, List.foldlM_cons, parseRecord_sample (hPaths relative List.mem_cons_self)]
        have hRest := funext (ih fun other hOther => hPaths other (List.mem_cons_of_mem _ hOther))
        exact congrArg (fun next => addSample listing relative >>= next) hRest
  rw [parseTreeListing, hRecords, hLoop]

theorem parse_sample : parseTreeListing asciiUnicode {} "skill" (sampleRaw ["SKILL.md"]) =
    .ok [("SKILL.md", sampleMetadata)] := by
  rw [parse_samples (by decide +kernel) (by decide +kernel)]
  decide +kernel

theorem holds_sample : Holds (.directory [("SKILL.md", .file 1 [65])]) [("SKILL.md", sampleMetadata)] :=
  ⟨by decide +kernel, by decide +kernel, by decide +kernel, by decide +kernel, by decide +kernel⟩

theorem listing_collected_sample : ∃ snapshot, collectSnapshot asciiUnicode {} Platform.standard ["source", "skill"]
      (some (.directory [("SKILL.md", .file 1 [65])])) ⟨"", "", ""⟩ = .ok snapshot ∧
    (snapshot.files.map fun file => (file.path, file.size)).Perm [("SKILL.md", 1)] :=
  (listing_collected_iff documented_ascii (by decide +kernel) parse_sample holds_sample (by decide +kernel)
    ⟨"", "", ""⟩).mpr ⟨by decide +kernel, by decide +kernel⟩

/-- Two directories whose names differ in case. -/
def collidingTree : Entry :=
  .directory [("SKILL.md", .file 1 [65]), ("A", .directory [("x", .file 1 [65])]), ("a", .directory [("y", .file 1 [65])])]

def collidingListing : List (String × Metadata) :=
  [("SKILL.md", sampleMetadata), ("A/x", sampleMetadata), ("a/y", sampleMetadata)]

theorem parse_colliding : parseTreeListing asciiUnicode {} "skill" (sampleRaw ["SKILL.md", "A/x", "a/y"]) =
    .ok collidingListing := by
  rw [parse_samples (by decide +kernel) (by decide +kernel)]
  decide +kernel

theorem holds_colliding : Holds collidingTree collidingListing :=
  ⟨by decide +kernel, by decide +kernel, by decide +kernel, by decide +kernel, by decide +kernel⟩

/-- The listing is accepted, and the directory of its files refused. -/
theorem colliding_refused : parseTreeListing asciiUnicode {} "skill" (sampleRaw ["SKILL.md", "A/x", "a/y"]) =
      .ok collidingListing ∧ Holds collidingTree collidingListing ∧
    ∀ p times, ¬ ∃ snapshot, collectSnapshot asciiUnicode {} p ["source", "skill"] (some collidingTree) times =
      .ok snapshot := by
  refine ⟨parse_colliding, holds_colliding, ?_⟩
  intro p times hSnapshot
  have hPlain : ∀ item ∈ collidingTree.contents "" 0, item.entry.IsPlain := by decide +kernel
  have fits := (collected_iff_fits hPlain).mp hSnapshot
  exact absurd fits.collisions (by decide +kernel)

end StageB

end VouchSpec
