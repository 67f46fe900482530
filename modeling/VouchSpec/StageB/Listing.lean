import VouchSpec.Library.Base64
import VouchSpec.Library.JsonReader
import VouchSpec.Library.Loops
import VouchSpec.Library.PosixPath
import VouchSpec.Inspection.Snapshot

/-! The listing of a tree that Git gives: its records, the paths in them and the limits
they keep. -/

namespace VouchSpec

namespace StageB

open Inspection

/-- How a call ends without a result: it raises, or its loop comes to no end. -/
inductive Failure where
  | raised (raised : Raised)
  | endless
deriving DecidableEq

def windowsReserved : List String :=
  ["con", "prn", "aux", "nul", "com1", "com2", "com3", "com4", "com5", "com6", "com7", "com8", "com9",
    "lpt1", "lpt2", "lpt3", "lpt4", "lpt5", "lpt6", "lpt7", "lpt8", "lpt9"]

/-- `component.split(".", 1)[0]`. -/
def stem (component : String) : String := String.ofList (Lines.before '.' component.toList)

/-- `component.endswith((" ", "."))`. -/
def endsLoosely (component : String) : Bool :=
  component.toList.getLast? = some ' ' || component.toList.getLast? = some '.'

section
variable (u : Unicode) (limits : ScanLimits)

/-- What is checked of each part of a path. -/
def validateComponent (component : String) : Except Raised Unit := do
  require (component ∉ ["", ".", ".."] ∧ u.casefold component ∉ [".git", ".hg", ".svn"])
    (pathRejected "source path contains a reserved segment")
  require (endsLoosely component = false ∧ (Bytes.utf8 component.toList).length ≤ 255)
    (pathRejected "source path contains a non-portable segment")
  require (u.casefold (stem component) ∉ windowsReserved) (pathRejected "source path contains a reserved device name")

/-- `_validate_artifact_relative`. -/
def validateArtifactRelative (path : String) : Except Raised String := do
  require (path ≠ "" ∧ Char.ofNat 92 ∉ path.toList ∧ ':' ∉ path.toList)
    (pathRejected "source contains a non-portable path")
  require (u.normalizeNfc path = path) (pathRejected "source path is not Unicode NFC")
  require (path.toList.all (fun c => 32 ≤ c.toNat ∧ c.toNat ≠ 127) = true)
    (pathRejected "source path contains a control character")
  let pure := PosixPath.ofString path
  require (path = pure.asPosix ∧ pure.parts ≠ [] ∧ pure.parts.length ≤ limits.maxDepth)
    (pathRejected "source path is absolute, ambiguous, or too deep")
  require ((Bytes.utf8 path.toList).length ≤ limits.maxPathBytes) (pathRejected "source path exceeds the byte limit")
  pure.parts.forM (validateComponent u)
  return pure.asPosix

end

/-- What a listing says of a file. -/
structure Metadata where
  size : Nat
  gitBlobSha1 : String
  gitMode : String
deriving DecidableEq

/-- A white-space byte. -/
def isSpaceByte (byte : UInt8) : Bool := (9 ≤ byte.toNat && byte.toNat ≤ 13) || byte.toNat = 32

/-- `header.split()`. -/
def fieldsOf (header : Bytes) : List Bytes := (header.splitOnP isSpaceByte).filter fun field => field ≠ []

def four? : List Bytes → Option (Bytes × Bytes × Bytes × Bytes)
  | [mode, objectType, oid, encodedSize] => some (mode, objectType, oid, encodedSize)
  | _ => none

def isDigitByte (byte : UInt8) : Bool := 48 ≤ byte.toNat && byte.toNat ≤ 57

/-- The number in digits, between two of which an underscore may stand. -/
def digitsOf? (text : Bytes) : Option Nat :=
  let groups := text.splitOn 95
  let digits := groups.flatten
  if groups.all (fun group => group ≠ []) = true ∧ digits.all isDigitByte = true ∧ digits.length ≤ Json.maxDigits then
    some (digits.foldl (fun number byte => 10 * number + (byte.toNat - 48)) 0)
  else none

/-- `int` of a field. -/
def intOf? : Bytes → Option Int
  | 43 :: text => (digitsOf? text).map Int.ofNat
  | 45 :: text => (digitsOf? text).map fun number => -Int.ofNat number
  | text => (digitsOf? text).map Int.ofNat

/-- The text of ASCII bytes. -/
def textOf (bytes : Bytes) : String := String.ofList (bytes.map fun byte => Char.ofNat byte.toNat)

def isHexByte (byte : UInt8) : Bool := isDigitByte byte || (97 ≤ byte.toNat && byte.toNat ≤ 102)

/-- What the loop over the records has come to; `expected` in the order of the records. -/
structure Listing where
  expected : List (String × Metadata) := []
  folded : List String := []
  totalBytes : Nat := 0
  directories : List String := []

def treeInvalid (message : String) : Failure := .raised (rejected message "source_tree_invalid")

def refused (raised : Raised) : Failure := .raised raised

section
variable (u : Unicode) (limits : ScanLimits) (skillPath : String)

/-- The bounds that a file of the listing has to keep. -/
def Listing.add (listing : Listing) (relative : String) (size : Int) (oid mode : String) : Except Failure Listing := do
  require (0 ≤ size ∧ size ≤ limits.maxFileBytes)
    (refused (limitExceeded "source file exceeds the individual-file limit"))
  require (relative = "SKILL.md" → size ≤ limits.maxSkillMdBytes)
    (refused (limitExceeded "SKILL.md exceeds its configured byte limit"))
  require (listing.expected.length < limits.maxFiles) (refused (limitExceeded "source exceeds the file-count limit"))
  require (listing.totalBytes + size.toNat ≤ limits.maxTotalBytes)
    (refused (limitExceeded "source exceeds the total-byte limit"))
  require (u.casefold relative ∉ listing.folded)
    (refused (pathRejected "source contains a case-insensitive path collision"))
  let pure := PosixPath.ofString relative
  let parents ← Except.ofOption .endless (pure.parent.climb pure.names.length)
  let directories := parents.foldl (fun directories parent => directories.insert (u.casefold parent)) listing.directories
  require (directories.length ≤ limits.maxDirectories)
    (refused (limitExceeded "source exceeds the directory-count limit"))
  return { expected := listing.expected ++ [(relative, { size := size.toNat, gitBlobSha1 := oid, gitMode := mode })]
           folded := u.casefold relative :: listing.folded
           totalBytes := listing.totalBytes + size.toNat
           directories }

/-- One record of the listing. -/
def Listing.parseRecord (listing : Listing) (record : Bytes) : Except Failure Listing := do
  let header := record.takeWhile fun byte => byte ≠ 9
  let encodedPath := (record.dropWhile fun byte => byte ≠ 9).drop 1
  let (mode, objectType, oid, encodedSize) ← Except.ofOption (treeInvalid "Git tree metadata was malformed")
    (if 9 ∈ record then four? (fieldsOf header) else none)
  require (objectType = Bytes.ascii "blob" ∧ mode ∈ [Bytes.ascii "100644", Bytes.ascii "100755"])
    (refused (pathRejected "symlinks, submodules, and special Git entries are not accepted"))
  let fullPath ← Except.ofOption (treeInvalid "Git tree path or size was invalid") (Bytes.decodeUtf8 encodedPath)
  let size ← Except.ofOption (treeInvalid "Git tree path or size was invalid") (intOf? encodedSize)
  let start := skillPath.toList ++ ['/']
  require (start <+: fullPath) (treeInvalid "Git tree entry escaped the requested skill path")
  let relative ← (validateArtifactRelative u limits (String.ofList (fullPath.drop start.length))).mapError refused
  require (oid.length = 40 ∧ oid.all isHexByte = true) (treeInvalid "Git blob identity was invalid")
  listing.add u limits relative size (textOf oid) (textOf mode)

/-- `_parse_tree_listing`. -/
def parseTreeListing (raw : Bytes) : Except Failure (List (String × Metadata)) := do
  let listing ← ((raw.splitOn 0).filter fun record => record ≠ []).foldlM (Listing.parseRecord u limits skillPath) {}
  require (listing.expected ≠ [] ∧ "SKILL.md" ∈ listing.expected.map Prod.fst)
    (.raised (rejected "requested directory has no tracked SKILL.md" "source_scope_invalid"))
  return listing.expected

end

/-- The Unicode functions on ASCII texts. -/
def asciiUnicode : Unicode where
  casefold value := String.ofList (value.toList.map Char.toLower)
  normalizeNfc value := value
  lower value := String.ofList (value.toList.map Char.toLower)

/-- A part of a path that passes its checks. -/
structure Component (u : Unicode) (component : String) : Prop where
  notReserved : component ∉ ["", ".", ".."] ∧ u.casefold component ∉ [".git", ".hg", ".svn"]
  portable : endsLoosely component = false ∧ (Bytes.utf8 component.toList).length ≤ 255
  notDevice : u.casefold (stem component) ∉ windowsReserved

/-- A path that passes `_validate_artifact_relative`. It may have a root. -/
structure ArtifactPath (u : Unicode) (limits : ScanLimits) (path : String) : Prop where
  portable : path ≠ "" ∧ Char.ofNat 92 ∉ path.toList ∧ ':' ∉ path.toList
  normalized : u.normalizeNfc path = path
  characters : ∀ c ∈ path.toList, 32 ≤ c.toNat ∧ c.toNat ≠ 127
  posix : path = (PosixPath.ofString path).asPosix
  present : (PosixPath.ofString path).parts ≠ []
  depth : (PosixPath.ofString path).parts.length ≤ limits.maxDepth
  bytes : (Bytes.utf8 path.toList).length ≤ limits.maxPathBytes
  components : ∀ component ∈ (PosixPath.ofString path).parts, Component u component

/-- The identity and the mode of a regular file. -/
def IsBlob (oid mode : String) : Prop :=
  (oid.toList.length = 40 ∧ ∀ c ∈ oid.toList, Bytes.isHexDigit c = true) ∧ (mode = "100644" ∨ mode = "100755")

/-- What holds of a listing after any of its records. -/
structure Listing.Sound (u : Unicode) (limits : ScanLimits) (listing : Listing) : Prop where
  paths : ∀ entry ∈ listing.expected, ArtifactPath u limits entry.1
  relative : ∀ entry ∈ listing.expected, (PosixPath.ofString entry.1).root = ""
  sizes : ∀ entry ∈ listing.expected, entry.2.size ≤ limits.maxFileBytes
  skill : ∀ entry ∈ listing.expected, entry.1 = "SKILL.md" → entry.2.size ≤ limits.maxSkillMdBytes
  count : listing.expected.length ≤ limits.maxFiles
  folded : listing.folded = (listing.expected.map fun entry => u.casefold entry.1).reverse
  distinct : listing.folded.Nodup
  totalBytes : listing.totalBytes = (listing.expected.map fun entry => entry.2.size).sum
  total : listing.totalBytes ≤ limits.maxTotalBytes
  blobs : ∀ entry ∈ listing.expected, IsBlob entry.2.gitBlobSha1 entry.2.gitMode

section
variable {u : Unicode} {limits : ScanLimits} {skillPath : String}

theorem validateComponent_eq_ok_iff {component : String} :
    validateComponent u component = .ok () ↔ Component u component := by
  simp only [validateComponent, Except.bind_eq_ok_iff, require_eq_ok, exists_const]
  constructor
  · intro h
    exact ⟨h.1, h.2.1, h.2.2⟩
  · intro component
    exact ⟨component.notReserved, component.portable, component.notDevice⟩

theorem validateArtifactRelative_eq_ok_iff {path result : String} :
    validateArtifactRelative u limits path = .ok result ↔ ArtifactPath u limits path ∧ result = path := by
  have hComponents : ∀ components : List String, components.forM (validateComponent u) = .ok () ↔
      ∀ component ∈ components, Component u component := by
    intro components
    simp only [Except.forM_eq_ok_iff, validateComponent_eq_ok_iff]
  simp only [validateArtifactRelative, Except.bind_eq_ok_iff, require_eq_ok, exists_const, Except.pure_eq_ok_iff,
    List.all_eq_true, decide_eq_true_eq]
  constructor
  · rintro ⟨hPortable, hNormalized, hCharacters, ⟨hPosix, hPresent, hDepth⟩, hBytes, ⟨⟩, hParts, rfl⟩
    exact ⟨⟨hPortable, hNormalized, hCharacters, hPosix, hPresent, hDepth, hBytes, (hComponents _).mp hParts⟩,
      hPosix.symm⟩
  · rintro ⟨valid, rfl⟩
    exact ⟨valid.portable, valid.normalized, valid.characters, ⟨valid.posix, valid.present, valid.depth⟩, valid.bytes,
      (), (hComponents _).mpr valid.components, valid.posix.symm⟩

/-- What a record has to be for a listing to go on after it. -/
theorem add_eq_ok {listing next : Listing} {relative oid mode : String} {size : Int}
    (h : listing.add u limits relative size oid mode = .ok next) :
    (PosixPath.ofString relative).root = "" ∧ 0 ≤ size ∧ size ≤ limits.maxFileBytes ∧
      (relative = "SKILL.md" → size ≤ limits.maxSkillMdBytes) ∧ listing.expected.length < limits.maxFiles ∧
      listing.totalBytes + size.toNat ≤ limits.maxTotalBytes ∧ u.casefold relative ∉ listing.folded ∧
      next.expected = listing.expected ++ [(relative, ⟨size.toNat, oid, mode⟩)] ∧
      next.folded = u.casefold relative :: listing.folded ∧ next.totalBytes = listing.totalBytes + size.toNat := by
  simp only [Listing.add, Except.bind_eq_ok_iff, require_eq_ok, exists_const, Except.pure_eq_ok_iff,
    Except.ofOption_eq_ok_iff] at h
  obtain ⟨hSize, hSkill, hCount, hTotal, hFresh, parents, hParents, -, hNext⟩ := h
  subst hNext
  refine ⟨?_, hSize.1, hSize.2, hSkill, hCount, hTotal, hFresh, rfl, rfl, rfl⟩
  rcases PosixPath.rootOf_cases relative with hNone | hRoot
  · exact hNone
  · -- an absolute path has no parent that is the empty path
    have hEndless := @PosixPath.climb_rooted (PosixPath.ofString relative).parent hRoot
    rw [hEndless] at hParents
    cases hParents

theorem Listing.sound_empty : Listing.Sound u limits {} :=
  ⟨by simp, by simp, by simp, by simp, by simp, rfl, List.nodup_nil, rfl, by simp, by simp⟩

theorem Listing.Sound.add {listing next : Listing} (sound : listing.Sound u limits) {relative oid mode : String}
    {size : Int} (valid : ArtifactPath u limits relative) (hBlob : IsBlob oid mode) (h : listing.add u limits relative size oid mode = .ok next) :
    next.Sound u limits := by
  obtain ⟨hRoot, hNonneg, hSize, hSkill, hCount, hTotal, hFresh, hExpected, hFolded, hBytes⟩ := add_eq_ok h
  have hEach : ∀ {property : String × Metadata → Prop}, (∀ entry ∈ listing.expected, property entry) →
      property (relative, ⟨size.toNat, oid, mode⟩) → ∀ entry ∈ next.expected, property entry := by
    intro property hOld hNew entry hEntry
    rw [hExpected] at hEntry
    rcases List.mem_append.mp hEntry with hBefore | hLast
    · exact hOld entry hBefore
    · rwa [List.mem_singleton.mp hLast]
  constructor
  · exact hEach sound.paths valid
  · exact hEach sound.relative hRoot
  · exact hEach sound.sizes (by show size.toNat ≤ limits.maxFileBytes; omega)
  · refine hEach sound.skill ?_
    intro hSame
    have hBound := hSkill hSame
    show size.toNat ≤ limits.maxSkillMdBytes
    omega
  · rw [hExpected, List.length_append, List.length_singleton]
    exact hCount
  · rw [hFolded, hExpected, sound.folded]
    simp
  · rw [hFolded]
    exact List.nodup_cons.mpr ⟨hFresh, sound.distinct⟩
  · rw [hBytes, hExpected, sound.totalBytes]
    simp
  · rw [hBytes]
    exact hTotal
  · exact hEach sound.blobs hBlob

theorem isHexDigit_of_byte {byte : UInt8} (h : isHexByte byte = true) :
    Bytes.isHexDigit (Char.ofNat byte.toNat) = true := by
  simp only [isHexByte, isDigitByte, Bool.or_eq_true, Bool.and_eq_true, decide_eq_true_eq] at h
  generalize byte.toNat = code at h
  have hCode : code < 103 := by omega
  interval_cases code <;> first | omega | decide

theorem isBlob_of_bytes {oid mode : Bytes} (hOid : oid.length = 40 ∧ oid.all isHexByte = true)
    (hMode : mode ∈ [Bytes.ascii "100644", Bytes.ascii "100755"]) : IsBlob (textOf oid) (textOf mode) := by
  refine ⟨⟨by rw [textOf, String.toList_ofList, List.length_map, hOid.1], ?_⟩, ?_⟩
  · intro c hC
    rw [textOf, String.toList_ofList] at hC
    obtain ⟨byte, hByte, rfl⟩ := List.mem_map.mp hC
    exact isHexDigit_of_byte (List.all_eq_true.mp hOid.2 byte hByte)
  · rcases List.mem_cons.mp hMode with rfl | hOther
    · exact Or.inl (by decide)
    · obtain rfl := List.mem_singleton.mp hOther
      exact Or.inr (by decide)

theorem Listing.Sound.parseRecord {listing next : Listing} (sound : listing.Sound u limits) {record : Bytes}
    (h : listing.parseRecord u limits skillPath record = .ok next) : next.Sound u limits := by
  simp only [Listing.parseRecord, Except.bind_eq_ok_iff, require_eq_ok, exists_const, Except.ofOption_eq_ok_iff,
    Except.mapError_eq_ok_iff, validateArtifactRelative_eq_ok_iff, Prod.exists] at h
  obtain ⟨mode, objectType, oid, encodedSize, -, ⟨-, hMode⟩, fullPath, -, size, -, -, relative, ⟨valid, rfl⟩, hOid,
    hAdd⟩ := h
  exact sound.add valid (isBlob_of_bytes hOid hMode) hAdd

/-- What holds of every listing that is accepted. -/
theorem sound_of_parseTreeListing {raw : Bytes} {expected : List (String × Metadata)}
    (h : parseTreeListing u limits skillPath raw = .ok expected) :
    ∃ listing, Listing.Sound u limits listing ∧ listing.expected = expected ∧ "SKILL.md" ∈ expected.map Prod.fst := by
  simp only [parseTreeListing, Except.bind_eq_ok_iff, require_eq_ok, exists_const, Except.pure_eq_ok_iff] at h
  obtain ⟨listing, hRecords, ⟨-, hSkill⟩, rfl⟩ := h
  refine ⟨listing, ?_, rfl, hSkill⟩
  exact Except.foldlM_keeps (fun before record after sound hStep => sound.parseRecord hStep) Listing.sound_empty hRecords

/-- The record of a file below the skill path, whose own checks pass. -/
theorem parseRecord_eq {listing : Listing} {header mode oid encodedSize : Bytes} {relative : String} {size : Int}
    (hTab : (9 : UInt8) ∉ header) (hFields : four? (fieldsOf header) = some (mode, Bytes.ascii "blob", oid, encodedSize))
    (hMode : mode ∈ [Bytes.ascii "100644", Bytes.ascii "100755"]) (hSize : intOf? encodedSize = some size)
    (hOid : oid.length = 40 ∧ oid.all isHexByte = true) (path : ArtifactPath u limits relative) :
    listing.parseRecord u limits skillPath (header ++ 9 :: Bytes.utf8 (skillPath.toList ++ '/' :: relative.toList)) =
      listing.add u limits relative size (textOf oid) (textOf mode) := by
  have hKeep : ∀ byte ∈ header, (fun byte : UInt8 => decide (byte ≠ 9)) byte = true := by
    intro byte hByte
    exact decide_eq_true fun hSame => hTab (hSame ▸ hByte)
  have hStart : skillPath.toList ++ ['/'] <+: skillPath.toList ++ '/' :: relative.toList :=
    ⟨relative.toList, by simp⟩
  have hValid := validateArtifactRelative_eq_ok_iff.mpr ⟨path, rfl⟩
  simp only [Listing.parseRecord, List.takeWhile_append_of_pos hKeep, List.dropWhile_append_of_pos hKeep]
  simp [hFields, Except.ofOption, require, hMode, hSize, hOid, bind, Except.bind, Bytes.decodeUtf8_utf8, hStart,
    hValid]
  rfl

end

end StageB

end VouchSpec
