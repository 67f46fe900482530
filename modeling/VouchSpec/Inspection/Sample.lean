import VouchSpec.Inspection.Receipt

/-! A small skill to evaluate the inspector on, and what the libraries make of it. -/

namespace VouchSpec

namespace Inspection

namespace Sample

def lower (value : String) : String := String.ofList (value.toList.map Char.toLower)

def skillText : String := "---\nname: demo\ndescription: Demo.\n---\nBody\n"

/-- The frontmatter of the skill as the YAML library reads it. -/
def metadata : Value :=
  .mapping [(.text (Text.ofString "name"), .text (Text.ofString "demo")),
    (.text (Text.ofString "description"), .text (Text.ofString "Demo."))]

def node : Node :=
  .mapping [(.scalar "tag:yaml.org,2002:str" "name", .scalar "tag:yaml.org,2002:str" "demo"),
    (.scalar "tag:yaml.org,2002:str" "description", .scalar "tag:yaml.org,2002:str" "Demo.")]

/-- A path below the root, which holds no NUL. -/
def resolve (_ : List String) (target : List Char) : Except Raised (Option String) :=
  if Char.ofNat 0 ∈ target then .error (.valueError "embedded null byte") else .ok (some (String.ofList target))

/-- The libraries on texts that no pattern matches and that name no URL. -/
def libraries : Libraries where
  casefold := lower
  normalizeNfc := id
  lower := lower
  lowerText := id
  finditer _ _ := []
  search _ _ := false
  urlparse path := some { scheme := "", path, hostname := some none, port := some none }
  urlunsplit _ _ path := path
  unquote := id
  resolve := resolve
  scanYaml _ := (List.replicate 14 .other, none)
  composeYaml _ := .ok (some node)
  loadYaml _ := .ok metadata
  loadJson _ := .error .decode
  loadToml _ := .error .decode
  repr _ := .error .recursion

def limits : ScanLimits := .default

def root : List String := ["/", "srv", "demo"]

def runtime : Runtime :=
  { implementation := "cpython", python := "3.12.3", pyyaml := "6.0.2", mcp := "1.9.0", schemaBytes := [] }

/-- Readings of 2026-01-01T00:00:00Z. -/
def clock : Clock := { now := 1767225600000000, started := 1767225600000000, completed := 1767225600000000 }

/-- A directory that holds one file. -/
def treeOf (text : String) : Entry := .directory [("SKILL.md", .file 1 (Bytes.utf8 text.toList))]

def snapshotOf (p : Platform) (times : CaptureTimes) (text : String) : Snapshot :=
  let files := [fileData p "SKILL.md" (Bytes.utf8 text.toList)]
  { root, files, totalBytes := (Bytes.utf8 text.toList).length
    directorySha256 := (p.sha256 (directoryBytes files)).hexdigest, excludedPaths := [], times }

/-- The snapshot of the directory where it lies elsewhere. -/
def snapshotAt (p : Platform) (place : List String) (times : CaptureTimes) (text : String) : Snapshot :=
  { snapshotOf p times text with root := place }

theorem rootName_snapshotAt {place : List String} (hPlace : place.getLast? = some "demo") (p : Platform)
    (times : CaptureTimes) (text : String) : (snapshotAt p place times text).rootName = "demo" := by
  rw [Snapshot.rootName, snapshotAt, hPlace]
  rfl

theorem collect_at (p : Platform) (times : CaptureTimes) {place : List String} (hPlace : place.getLast? = some "demo") :
    collectSnapshot libraries.toUnicode limits p place (some (treeOf skillText)) times =
      .ok (snapshotAt p place times skillText) := by
  simp only [collectSnapshot, hPlace]
  rfl

theorem collect_sample (p : Platform) (times : CaptureTimes) :
    collectSnapshot libraries.toUnicode limits p root (some (treeOf skillText)) times =
      .ok (snapshotOf p times skillText) :=
  collect_at p times rfl

def parsed : ParsedSkill := { metadata, structuralFindings := [] }

def lines : List (List Char) :=
  ["---".toList, "name: demo".toList, "description: Demo.".toList, "---".toList, "Body".toList]

theorem split_skillText : Lines.split skillText.toList = lines := by decide +kernel

def frontmatter : Frontmatter := { metadata, body := "Body".toList, findings := [], bodyStartLine := 5 }

theorem frontmatter_sample : parseFrontmatter libraries skillText.toList = .ok frontmatter := by
  unfold parseFrontmatter
  rw [split_skillText]
  rfl

theorem metadata_sample : validateMetadata metadata "demo" = [] := by decide +kernel

theorem references_at (p : Platform) (place : List String) (times : CaptureTimes) :
    extractReferences libraries limits "Body".toList (snapshotAt p place times skillText) 5 = .ok {} := by
  rfl

theorem parse_at (p : Platform) (times : CaptureTimes) {place : List String} (hPlace : place.getLast? = some "demo") :
    parseSkill libraries limits (snapshotAt p place times skillText) = .ok parsed := by
  have hGet : (snapshotAt p place times skillText).get? "SKILL.md" =
      some (fileData p "SKILL.md" (Bytes.utf8 skillText.toList)) := rfl
  have hNul : Char.ofNat 0 ∉ skillText.toList := by decide
  simp only [parseSkill, hGet, fileData, Bytes.decodeUtf8_utf8, if_neg hNul, readSkill, frontmatter_sample, bind,
    Except.bind, frontmatter, references_at, rootName_snapshotAt hPlace, metadata_sample, split_skillText]
  rfl

def static : StaticAnalysis where
  findings := []
  skippedTextFiles := []
  filesInSnapshot := 1
  findingLimitReached := false
  perRuleLimitReached := false
  dependencyLimitReached := false
  referencedHostLimitReached := false
  malformedUrlCount := 0
  requirementEvidence := fun _ => []
  requirementEvidenceLimits := []
  dependencies := []
  manifestParseFailures := []
  scriptLanguages := []
  referencedHosts := []

theorem foldl_fixed {State Item : Type} {step : State → Item → State} {items : List Item} {state : State}
    (hStep : ∀ item ∈ items, step state item = state) : items.foldl step state = state := by
  induction items with
  | nil => rfl
  | cons item rest ih =>
      rw [List.foldl_cons, hStep item List.mem_cons_self]
      exact ih fun other hOther => hStep other (List.mem_cons_of_mem _ hOther)

theorem scanLine_sample (scan : Scan) (path : String) {line : List Char} (hLine : line ∈ lines) (lineNumber : Nat) :
    scan.scanLine libraries limits path line lineNumber = scan := by
  have hSilent : ∀ line ∈ lines, ∀ indicator ∈ indicators, (indicator.2.any fun token =>
      Lines.contains (lower (String.ofList line)).toList token.toList) = false := by decide +kernel
  unfold Scan.scanLine
  have hRules : rules.foldl (Scan.applyRule libraries limits path lineNumber line) scan = scan :=
    foldl_fixed fun rule _ => rfl
  simp only [libraries, List.foldl_nil] at hRules ⊢
  rw [hRules]
  refine foldl_fixed fun indicator hIndicator => ?_
  rw [Scan.applyIndicator, hSilent line hLine indicator hIndicator]
  rfl

theorem scanLines_sample (scan : Scan) (path : String) {few : List (List Char)} (hLines : ∀ line ∈ few, line ∈ lines)
    (lineNumber : Nat) : scan.scanLines libraries limits path lineNumber few = scan := by
  induction few generalizing lineNumber with
  | nil => rfl
  | cons line rest ih =>
      rw [Scan.scanLines, scanLine_sample scan path (hLines line List.mem_cons_self)]
      exact ih (fun other hOther => hLines other (List.mem_cons_of_mem _ hOther)) _

theorem scan_at (p : Platform) (place : List String) (times : CaptureTimes) :
    scanSnapshot libraries limits (snapshotAt p place times skillText) parsed = {} := by
  have hCandidate : isTextCandidate libraries "SKILL.md" (Bytes.utf8 skillText.toList) = true := by decide +kernel
  have hShort : ¬ limits.maxTextBytes < (Bytes.utf8 skillText.toList).length := by decide +kernel
  have hShell : allowsShell libraries metadata = false := by decide +kernel
  have hLanguage : Scan.addLanguage libraries {} (fileData p "SKILL.md" (Bytes.utf8 skillText.toList)) = {} := by
    rw [Scan.addLanguage, if_neg (by simp only [fileData]; decide)]
  have hFile : Scan.scanFile libraries limits {} (fileData p "SKILL.md" (Bytes.utf8 skillText.toList)) = {} := by
    rw [Scan.scanFile, hLanguage]
    simp only [fileData, hCandidate, Bool.true_eq_false, if_false, if_neg hShort, Bytes.decodeUtf8_utf8,
      split_skillText]
    exact scanLines_sample {} _ (fun _ => id) 1
  simp only [scanSnapshot, snapshotAt, snapshotOf, List.foldl_cons, List.foldl_nil, hFile, parsed, hShell, Bool.false_eq_true,
    if_false]

theorem analyze_at (p : Platform) (place : List String) (times : CaptureTimes) :
    analyzeStatic libraries limits (snapshotAt p place times skillText) parsed = .ok static := by
  have hName : baseName "SKILL.md" = "SKILL.md".toList := by decide +kernel
  have hRecords : dependencyRecords libraries (snapshotAt p place times skillText) limits.maxDependencies = .ok {} := by
    simp only [dependencyRecords, snapshotAt, snapshotOf, List.foldlM_cons, List.foldlM_nil, Manifests.addFile, fileData,
      Bytes.decodeUtf8_utf8, hName]
    rfl
  simp only [analyzeStatic, scan_at, hRecords]
  rfl

theorem inspect_at (t : Toolkit) (times : CaptureTimes) {place : List String} (hPlace : place.getLast? = some "demo") :
    inspect t libraries limits place (some (treeOf skillText)) times =
      .ok ⟨snapshotAt t.toPlatform place times skillText, parsed, static⟩ := by
  simp only [inspect, collect_at _ _ hPlace, bind, Except.bind, parse_at _ _ hPlace, analyze_at]
  rfl

theorem inspect_sample (t : Toolkit) (times : CaptureTimes) : inspect t libraries limits root (some (treeOf skillText)) times =
    .ok ⟨snapshotOf t.toPlatform times skillText, parsed, static⟩ :=
  inspect_at t times rfl

theorem receiptCore_at (t : Toolkit) (runtime : Runtime) (place : List String) (times : CaptureTimes)
    (timestamp expiresAt : Int) (provenance : Option ProvenanceEvidence) (independentStaticScan : Bool) :
    ∃ core, receiptCore t libraries runtime limits ⟨snapshotAt t.toPlatform place times skillText, parsed, static⟩
      timestamp expiresAt provenance independentStaticScan = .ok core := by
  have hClaims : claimsJson metadata = .ok (.obj [("notice", .str untrustedNotice), ("name", .str "demo"),
      ("description", .str "Demo."), ("compatibility", .null), ("allowed_tools", .null)]) := rfl
  have hLicense : encodedClaim (safeClaim (metadata.get "license") 500) = .ok .null := rfl
  simp only [receiptCore, artifactJson, formatValidationJson, licenseEvidence, StaticAnalysis.json, parsed, static,
    List.mapM_nil, hClaims, hLicense, bind, Except.bind, pure, Except.pure]
  exact ⟨_, rfl⟩

/-- The receipt of the skill at a time that is read, for some days. -/
theorem inspectSkill_at (t : Toolkit) (runtime : Runtime) (clock : Clock) {place : List String}
    (hPlace : place.getLast? = some "demo") {generatedAt : Option String} {timestamp : Int}
    (hTime : normalizeTime t generatedAt clock.now = .ok timestamp) {expiresInDays : Int}
    (hDays : 1 ≤ expiresInDays ∧ expiresInDays ≤ 30) {provenance : Option ProvenanceEvidence} {independentStaticScan : Bool}
    (hLabel : independentStaticScan = true → provenance.isSome = true) : ∃ core,
    receiptCore t libraries runtime limits
        ⟨snapshotAt t.toPlatform place (captureTimes t generatedAt timestamp clock) skillText, parsed, static⟩ timestamp
        (timestamp + expiresInDays * 86400 * 1000000) provenance independentStaticScan = .ok core ∧
      inspectSkill t libraries runtime limits clock place (some (treeOf skillText)) generatedAt expiresInDays provenance
        independentStaticScan = .ok (sealReceipt t.toPlatform core) := by
  obtain ⟨core, hCore⟩ := receiptCore_at t runtime place (captureTimes t generatedAt timestamp clock) timestamp
    (timestamp + expiresInDays * 86400 * 1000000) provenance independentStaticScan
  refine ⟨core, hCore, ?_⟩
  simp only [inspectSkill, hTime, inspect_at t _ hPlace, require_of hDays, require_of hLabel, bind, Except.bind, hCore]
  rfl

/-- The receipt of the skill by the clock, for a week. -/
theorem inspectSkill_sample (t : Toolkit) (runtime : Runtime) (clock : Clock) : ∃ receipt,
    inspectSkill t libraries runtime limits clock root (some (treeOf skillText)) none 7 none false = .ok receipt := by
  obtain ⟨core, -, hReceipt⟩ := @inspectSkill_at t runtime clock root rfl none _ rfl 7 (by decide) none false (by simp)
  exact ⟨_, hReceipt⟩

end Sample

end Inspection

end VouchSpec
