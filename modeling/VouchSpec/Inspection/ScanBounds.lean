import VouchSpec.Inspection.Bounds

/-! The bounds that the static analysis keeps: on what the scan of the lines records,
and on the dependencies that the manifests declare. -/

namespace VouchSpec

namespace Inspection

/-- A path as the schema asks for it. -/
def Placed (path : String) : Prop := path ≠ "" ∧ path.toList.length ≤ 1024

section
variable {lib : Libraries} {limits : ScanLimits}

theorem GoodPath.placed {path : String} (good : GoodPath limits path) : Placed path := by
  have hBytes := Bytes.length_le_utf8 path.toList
  have hLimit := good.bytes
  have hCeiling := limits.ceilings
  exact ⟨good.nonempty, by omega⟩

theorem redact_length (text : List Char) (limit : Nat) : (redact lib text limit).length ≤ limit + 1 := by
  have hTake : ∀ cleaned : List Char,
      (cleaned.take limit ++ if limit < cleaned.length then [Char.ofNat 0x2026] else []).length ≤ limit + 1 := by
    intro cleaned
    rw [List.length_append, List.length_take]
    split
    · rw [List.length_singleton]
      omega
    · rw [List.length_nil]
      omega
  exact hTake _

/-- A finding of a rule, on a line of a file. -/
structure StaticFinding.Formed (finding : StaticFinding) : Prop where
  rule : finding.rule ∈ rules
  path : Placed finding.path
  line : IsLine finding.line
  excerpt : finding.evidenceExcerpt.length ≤ 241

structure Evidence.Formed (evidence : Evidence) : Prop where
  path : Placed evidence.path
  line : IsLine evidence.line
  excerpt : evidence.excerpt.length ≤ 141

/-- The scan after some number of files. -/
structure Scan.Bounded (limits : ScanLimits) (count : Nat) (scan : Scan) : Prop where
  findings : ∀ finding ∈ scan.findings, finding.Formed
  findingCount : scan.findings.length ≤ limits.maxFindings
  evidence : ∀ kind, ∀ evidence ∈ scan.requirementEvidence kind, evidence.Formed
  evidenceCount : ∀ kind, (scan.requirementEvidence kind).length ≤ limits.maxRequirementEvidencePerKind
  hosts : scan.referencedHosts.length ≤ limits.maxReferencedHosts
  skipped : ∀ file ∈ scan.skipped, Placed file.path
  skippedCount : scan.skipped.length ≤ count
  languages : ∀ language ∈ scan.scriptLanguages, language ≠ ""
  languageCount : scan.scriptLanguages.length ≤ count

variable {scan : Scan} {count : Nat}

theorem Scan.bounded_empty : Scan.Bounded limits 0 {} := by
  constructor <;> simp

theorem Scan.Bounded.addRequirement (bounded : scan.Bounded limits count) (kind : Requirement) {evidence : Evidence}
    (formed : evidence.Formed) : (scan.addRequirement limits kind evidence).Bounded limits count := by
  unfold Scan.addRequirement
  split
  · exact { bounded with }
  · next hRoom =>
      refine { bounded with evidence := ?_, evidenceCount := ?_ }
      · intro other
        by_cases hKind : other = kind
        · subst hKind
          simp only [Function.update_self, List.forall_mem_append, List.forall_mem_singleton]
          exact ⟨bounded.evidence other, formed⟩
        · simp only [Function.update_of_ne hKind]
          exact bounded.evidence other
      · intro other
        by_cases hKind : other = kind
        · subst hKind
          simp only [Function.update_self, List.length_append, List.length_singleton]
          omega
        · simp only [Function.update_of_ne hKind]
          exact bounded.evidenceCount other

theorem Scan.Bounded.addUrl (bounded : scan.Bounded limits count) (url : List Char) :
    (scan.addUrl lib limits url).Bounded limits count := by
  unfold Scan.addUrl
  split
  · exact { bounded with }
  · exact bounded
  · split
    · exact bounded
    · simp only
      split
      · exact bounded
      · split
        · exact { bounded with }
        · refine { bounded with hosts := ?_ }
          rw [List.length_append, List.length_singleton]
          omega

theorem Scan.Bounded.applyRule (bounded : scan.Bounded limits count) {path : String} (hPath : Placed path)
    {lineNumber : Nat} (hLine : IsLine lineNumber) (line : List Char) {rule : Rule} (hRule : rule ∈ rules) :
    (scan.applyRule lib limits path lineNumber line rule).Bounded limits count := by
  unfold Scan.applyRule
  split
  · exact bounded
  · split
    · exact { bounded with }
    · next hRoom =>
        split
        · exact { bounded with }
        · refine { bounded with findings := ?_, findingCount := ?_ }
          · simp only [List.forall_mem_append, List.forall_mem_singleton]
            exact ⟨bounded.findings, hRule, hPath, hLine, redact_length line 240⟩
          · rw [List.length_append, List.length_singleton]
            omega

theorem Scan.Bounded.applyIndicator (bounded : scan.Bounded limits count) (lowered : List Char) {evidence : Evidence}
    (formed : evidence.Formed) (indicator : Requirement × List String) :
    (scan.applyIndicator limits lowered evidence indicator).Bounded limits count := by
  unfold Scan.applyIndicator
  split
  · exact bounded.addRequirement _ formed
  · exact bounded

theorem Scan.Bounded.scanLine (bounded : scan.Bounded limits count) {path : String} (hPath : Placed path)
    {lineNumber : Nat} (hLine : IsLine lineNumber) (line : List Char) :
    (scan.scanLine lib limits path line lineNumber).Bounded limits count := by
  have hUrls : ((lib.finditer urlPattern line).foldl (fun scan found => scan.addUrl lib limits found.text)
      scan).Bounded limits count :=
    List.foldlRecOn _ _ bounded fun _ reached found _ => reached.addUrl found.text
  have hRules := List.foldlRecOn (motive := Scan.Bounded limits count) rules
    (Scan.applyRule lib limits path lineNumber line) hUrls
    fun _ reached rule hRule => reached.applyRule hPath hLine line hRule
  exact List.foldlRecOn _ _ hRules fun _ reached indicator _ =>
    reached.applyIndicator _ ⟨hPath, hLine, redact_length line 140⟩ indicator

theorem Scan.Bounded.scanLines {lines : List (List Char)} (bounded : scan.Bounded limits count) {path : String}
    (hPath : Placed path) {lineNumber : Nat} (hStart : 1 ≤ lineNumber) (hEnd : lineNumber + lines.length ≤ 10 ^ 7) :
    (scan.scanLines lib limits path lineNumber lines).Bounded limits count := by
  induction lines generalizing scan lineNumber with
  | nil => exact bounded
  | cons line rest ih =>
      rw [List.length_cons] at hEnd
      exact ih (bounded.scanLine hPath ⟨hStart, by omega⟩ line) (Nat.le_succ_of_le hStart) (by omega)

theorem Scan.Bounded.addLanguage (bounded : scan.Bounded limits count) (item : FileData) :
    (scan.addLanguage lib item).Bounded limits (count + 1) ∧ (scan.addLanguage lib item).skipped.length ≤ count := by
  have more : scan.Bounded limits (count + 1) :=
    { bounded with
      skippedCount := Nat.le_succ_of_le bounded.skippedCount
      languageCount := Nat.le_succ_of_le bounded.languageCount }
  have hNamed : ∀ stripped : String, (if stripped = "" then "unknown" else stripped) ≠ "" := by
    intro stripped
    split
    · decide
    · next hStripped => exact hStripped
  have hAdded : ∀ language : String, language ≠ "" → ∀ after, after =
      (if language ∈ scan.scriptLanguages then scan
        else { scan with scriptLanguages := scan.scriptLanguages ++ [language] }) →
      after.Bounded limits (count + 1) ∧ after.skipped.length ≤ count := by
    rintro language hLanguage _ rfl
    split
    · exact ⟨more, bounded.skippedCount⟩
    · refine ⟨{ more with languages := ?_, languageCount := ?_ }, bounded.skippedCount⟩
      · simp only [List.forall_mem_append, List.forall_mem_singleton]
        exact ⟨bounded.languages, hLanguage⟩
      · rw [List.length_append, List.length_singleton]
        exact Nat.succ_le_succ bounded.languageCount
  unfold Scan.addLanguage
  split
  · exact hAdded _ (hNamed _) _ rfl
  · exact ⟨more, bounded.skippedCount⟩

theorem Scan.Bounded.scanFile {p : Platform} (bounded : scan.Bounded limits count) {item : FileData}
    (good : GoodFile p limits item) : (scan.scanFile lib limits item).Bounded limits (count + 1) := by
  have hPath := good.path.placed
  obtain ⟨added, hSkipped⟩ := @Scan.Bounded.addLanguage lib limits scan count bounded item
  have hSkip : ∀ reason, Scan.Bounded limits (count + 1)
      { scan.addLanguage lib item with skipped := (scan.addLanguage lib item).skipped ++ [⟨item.path, reason⟩] } := by
    intro reason
    refine { added with skipped := ?_, skippedCount := ?_ }
    · simp only [List.forall_mem_append, List.forall_mem_singleton]
      exact ⟨added.skipped, hPath⟩
    · rw [List.length_append, List.length_singleton]
      exact Nat.succ_le_succ hSkipped
  unfold Scan.scanFile
  simp only
  split
  · exact added
  · split
    · exact hSkip .textSizeLimit
    · split
      · exact hSkip .nonUtf8
      · next text hDecoded =>
          have hText := good.length_text hDecoded
          have hLines : (Lines.split text).length ≤ text.length + 1 := Lines.splitFrom_length_le [] text
          exact added.scanLines hPath (le_refl 1) (by omega)

theorem Scan.Bounded.scanFiles {p : Platform} {files : List FileData} (bounded : scan.Bounded limits count)
    (hFiles : ∀ file ∈ files, GoodFile p limits file) :
    (files.foldl (Scan.scanFile lib limits) scan).Bounded limits (count + files.length) := by
  induction files generalizing scan count with
  | nil => exact bounded
  | cons file rest ih =>
      have hRest := ih (@Scan.Bounded.scanFile lib limits scan count p bounded file (hFiles file List.mem_cons_self))
        fun other hOther => hFiles other (List.mem_cons_of_mem _ hOther)
      rwa [List.length_cons, Nat.add_comm rest.length, ← Nat.add_assoc]

theorem bounded_scanSnapshot {p : Platform} {snapshot : Snapshot} (accepted : snapshot.Accepted p limits)
    (skill : ParsedSkill) : (scanSnapshot lib limits snapshot skill).Bounded limits snapshot.files.length := by
  have bounded := @Scan.Bounded.scanFiles lib limits {} 0 p snapshot.files Scan.bounded_empty accepted.files
  rw [Nat.zero_add] at bounded
  unfold scanSnapshot
  simp only
  split
  · exact bounded.addRequirement _ ⟨⟨by decide, by decide⟩, ⟨le_refl 1, by decide⟩, by decide⟩
  · exact bounded

/-- A dependency that a manifest declares. -/
structure Dependency.Formed (dependency : Dependency) : Prop where
  ecosystem : dependency.ecosystem ∈ ["python", "node", "rust"]
  short : dependency.declaration.length ≤ 300
  path : Placed dependency.sourcePath

structure ManifestFailure.Formed (failure : ManifestFailure) : Prop where
  path : Placed failure.path
  manifest : failure.manifest ∈ ["pyproject.toml", "package.json", "Cargo.toml"]
  reason : 1 ≤ failure.reason.toList.length ∧ failure.reason.toList.length ≤ 100

/-- The manifests after some number of files, each of which fails at most once. -/
structure Manifests.Bounded (limit count : Nat) (manifests : Manifests) : Prop where
  dependencies : ∀ dependency ∈ manifests.dependencies, dependency.Formed
  dependencyCount : manifests.dependencies.length ≤ limit
  failures : ∀ failure ∈ manifests.failures, failure.Formed
  failureCount : manifests.failures.length ≤ count

variable {manifests : Manifests} {limit : Nat}

theorem Manifests.Bounded.more (bounded : manifests.Bounded limit count) : manifests.Bounded limit (count + 1) :=
  { bounded with failureCount := Nat.le_succ_of_le bounded.failureCount }

theorem Manifests.Bounded.add (bounded : manifests.Bounded limit count) {record : Dependency} (formed : record.Formed) :
    (manifests.add limit record).Bounded limit count := by
  unfold Manifests.add
  split
  · exact bounded
  · split
    · exact { bounded with }
    · refine { bounded with dependencies := ?_, dependencyCount := ?_ }
      · simp only [List.forall_mem_append, List.forall_mem_singleton]
        exact ⟨bounded.dependencies, formed⟩
      · rw [List.length_append, List.length_singleton]
        omega

theorem Manifests.Bounded.fail (bounded : manifests.Bounded limit count) {path manifest reason : String}
    (hPath : Placed path) (hManifest : manifest ∈ ["pyproject.toml", "package.json", "Cargo.toml"])
    (hReason : 1 ≤ reason.toList.length ∧ reason.toList.length ≤ 100) :
    (manifests.fail path manifest reason).Bounded limit (count + 1) := by
  refine { bounded with failures := ?_, failureCount := ?_ }
  · simp only [Manifests.fail, List.forall_mem_append, List.forall_mem_singleton]
    exact ⟨bounded.failures, hPath, hManifest, hReason⟩
  · simpa [Manifests.fail] using bounded.failureCount

theorem formed_declaration {ecosystem path : String} (hEcosystem : ecosystem ∈ ["python", "node", "rust"])
    (hPath : Placed path) (text : Text) : (declaration ecosystem text path).Formed :=
  ⟨hEcosystem, List.length_take_le _ _, hPath⟩

theorem Manifests.Bounded.addAll {Item : Type} {items : List Item} {record : Item → Dependency}
    (bounded : manifests.Bounded limit count) (hFormed : ∀ item, (record item).Formed) :
    (items.foldl (fun manifests item => manifests.add limit (record item)) manifests).Bounded limit count :=
  List.foldlRecOn _ _ bounded fun _ reached item _ => reached.add (hFormed item)

theorem Manifests.Bounded.caught (bounded : manifests.Bounded limit count) {path manifest : String} (hPath : Placed path)
    (hManifest : manifest ∈ ["pyproject.toml", "package.json", "Cargo.toml"]) {error : LoadError} {after : Manifests}
    (h : manifests.caught path manifest error = .ok after) : after.Bounded limit (count + 1) := by
  cases error with
  | value message => cases h
  | decode =>
      obtain rfl := Except.ok.inj h
      exact bounded.fail hPath hManifest (by decide)
  | recursion =>
      obtain rfl := Except.ok.inj h
      exact bounded.fail hPath hManifest (by decide)

theorem Manifests.Bounded.addProject (bounded : manifests.Bounded limit count) {path : String} (hPath : Placed path)
    {text : List Char} {after : Manifests} (h : manifests.addProject lib limit path text = .ok after) :
    after.Bounded limit (count + 1) := by
  unfold Manifests.addProject at h
  split at h
  · exact bounded.caught hPath (by decide) h
  · split at h
    · obtain rfl := Except.ok.inj h
      exact bounded.fail hPath (by decide) (by decide)
    · obtain rfl := Except.ok.inj h
      exact bounded.more.addAll fun value => formed_declaration (by decide) hPath value

theorem Manifests.Bounded.addPackages {ecosystem path : String} {entries : List (Value × Value)}
    (bounded : manifests.Bounded limit count) (hEcosystem : ecosystem ∈ ["python", "node", "rust"])
    (hPath : Placed path) : (manifests.addPackages lib limit ecosystem path entries).1.Bounded limit count := by
  induction entries generalizing manifests with
  | nil => exact bounded
  | cons entry rest ih =>
      obtain ⟨package, version⟩ := entry
      unfold Manifests.addPackages
      split
      · exact ih (bounded.add (formed_declaration hEcosystem hPath _))
      · exact bounded
      · exact bounded

theorem Manifests.Bounded.addGroups {path : String} {data : Value} {groups : List String}
    (bounded : manifests.Bounded limit count) (hPath : Placed path)
    (hGroups : ∀ group ∈ groups, group.toList.length ≤ 80) {after : Manifests}
    (h : manifests.addGroups lib limit path data groups = .ok after) : after.Bounded limit (count + 1) := by
  induction groups generalizing manifests with
  | nil =>
      obtain rfl := Except.ok.inj h
      exact bounded.more
  | cons group rest ih =>
      have hRest := fun other hOther => hGroups other (List.mem_cons_of_mem _ hOther)
      have hReason : 1 ≤ ("unexpected-" ++ group ++ "-shape").toList.length ∧
          ("unexpected-" ++ group ++ "-shape").toList.length ≤ 100 := by
        have hGroup := hGroups group List.mem_cons_self
        simp only [String.toList_append, List.length_append]
        have hStart : "unexpected-".toList.length = 11 := by decide
        have hEnd : "-shape".toList.length = 6 := by decide
        omega
      unfold Manifests.addGroups at h
      split at h
      · split at h
        · obtain rfl := Except.ok.inj h
          exact bounded.fail hPath (by decide) hReason
        · exact ih bounded hRest h
      · next entries _ =>
          have hPackages := @Manifests.Bounded.addPackages lib count manifests limit "node" path entries bounded
            (by decide) hPath
          split at h
          · next hAll =>
              rw [hAll] at hPackages
              exact ih hPackages hRest h
          · next hSome =>
              rw [hSome] at hPackages
              exact hPackages.caught hPath (by decide) h
      · obtain rfl := Except.ok.inj h
        exact bounded.fail hPath (by decide) hReason

theorem Manifests.Bounded.addPackageJson (bounded : manifests.Bounded limit count) {path : String} (hPath : Placed path)
    {text : List Char} {after : Manifests} (h : manifests.addPackageJson lib limit path text = .ok after) :
    after.Bounded limit (count + 1) := by
  unfold Manifests.addPackageJson at h
  split at h
  · exact bounded.caught hPath (by decide) h
  · exact bounded.addGroups hPath (by decide) h
  · obtain rfl := Except.ok.inj h
    exact bounded.fail hPath (by decide) (by decide)

theorem Manifests.Bounded.addCargo (bounded : manifests.Bounded limit count) {path : String} (hPath : Placed path)
    {text : List Char} {after : Manifests} (h : manifests.addCargo lib limit path text = .ok after) :
    after.Bounded limit (count + 1) := by
  unfold Manifests.addCargo at h
  split at h
  · exact bounded.caught hPath (by decide) h
  · split at h
    · obtain rfl := Except.ok.inj h
      exact bounded.more
    · next entries _ =>
        have hPackages := @Manifests.Bounded.addPackages lib count manifests limit "rust" path entries bounded
          (by decide) hPath
        split at h
        · next hAll =>
            rw [hAll] at hPackages
            obtain rfl := Except.ok.inj h
            exact hPackages.more
        · next hSome =>
            rw [hSome] at hPackages
            exact hPackages.caught hPath (by decide) h
    · obtain rfl := Except.ok.inj h
      exact bounded.fail hPath (by decide) (by decide)

theorem Manifests.Bounded.addFile (bounded : manifests.Bounded limit count) {item : FileData} (hPath : Placed item.path)
    {after : Manifests} (h : manifests.addFile lib limit item = .ok after) : after.Bounded limit (count + 1) := by
  unfold Manifests.addFile at h
  split at h
  · obtain rfl := Except.ok.inj h
    exact bounded.more
  · simp only at h
    split at h
    · obtain rfl := Except.ok.inj h
      exact bounded.more.addAll fun value => formed_declaration (by decide) hPath _
    · split at h
      · exact bounded.addProject hPath h
      · split at h
        · exact bounded.addPackageJson hPath h
        · split at h
          · exact bounded.addCargo hPath h
          · obtain rfl := Except.ok.inj h
            exact bounded.more

theorem Manifests.Bounded.addFiles {files : List FileData} (bounded : manifests.Bounded limit count)
    (hPaths : ∀ file ∈ files, Placed file.path) {after : Manifests}
    (h : files.foldlM (Manifests.addFile lib limit) manifests = .ok after) :
    after.Bounded limit (count + files.length) := by
  induction files generalizing manifests count with
  | nil =>
      rw [← Except.pure_eq_ok_iff.mp h]
      exact bounded
  | cons file rest ih =>
      simp only [List.foldlM_cons, Except.bind_eq_ok_iff] at h
      obtain ⟨next, hStep, hRest⟩ := h
      have hAfter := ih (bounded.addFile (hPaths file List.mem_cons_self) hStep)
        (fun other hOther => hPaths other (List.mem_cons_of_mem _ hOther)) hRest
      rwa [List.length_cons, Nat.add_comm rest.length, ← Nat.add_assoc]

/-- The bounds on what an analysis reports. -/
structure StaticAnalysis.Bounded (limits : ScanLimits) (static : StaticAnalysis) : Prop where
  findings : ∀ finding ∈ static.findings, finding.Formed
  findingCount : static.findings.length ≤ limits.maxFindings
  evidence : ∀ kind, ∀ evidence ∈ static.requirementEvidence kind, evidence.Formed
  evidenceCount : ∀ kind, (static.requirementEvidence kind).length ≤ limits.maxRequirementEvidencePerKind
  hosts : static.referencedHosts.length ≤ limits.maxReferencedHosts
  skipped : ∀ file ∈ static.skippedTextFiles, Placed file.path
  skippedCount : static.skippedTextFiles.length ≤ limits.maxFiles
  languages : ∀ language ∈ static.scriptLanguages, language ≠ ""
  languageCount : static.scriptLanguages.length ≤ limits.maxFiles
  dependencies : ∀ dependency ∈ static.dependencies, dependency.Formed
  dependencyCount : static.dependencies.length ≤ limits.maxDependencies
  failures : ∀ failure ∈ static.manifestParseFailures, failure.Formed
  failureCount : static.manifestParseFailures.length ≤ limits.maxFiles
  files : static.filesInSnapshot ≤ limits.maxFiles

theorem bounded_analyzeStatic {p : Platform} {snapshot : Snapshot} (accepted : snapshot.Accepted p limits)
    {skill : ParsedSkill} {static : StaticAnalysis} (h : analyzeStatic lib limits snapshot skill = .ok static) :
    static.Bounded limits := by
  have hPaths : ∀ file ∈ snapshot.files, Placed file.path := fun file hFile => (accepted.files file hFile).path.placed
  have scanned := @bounded_scanSnapshot lib limits p snapshot accepted skill
  simp only [analyzeStatic, Except.bind_eq_ok_iff, Except.pure_eq_ok_iff] at h
  obtain ⟨manifests, hManifests, rfl⟩ := h
  have hEmpty : Manifests.Bounded limits.maxDependencies 0 {} := by
    constructor <;> simp
  have declared := hEmpty.addFiles hPaths hManifests
  rw [Nat.zero_add] at declared
  constructor
  · exact fun finding hFinding => scanned.findings finding ((List.perm_insertionSort _ _).mem_iff.mp hFinding)
  · rw [List.length_insertionSort]
    exact scanned.findingCount
  · exact scanned.evidence
  · exact scanned.evidenceCount
  · rw [List.length_insertionSort]
    exact scanned.hosts
  · exact scanned.skipped
  · exact scanned.skippedCount.trans accepted.fileCount
  · exact fun language hLanguage => scanned.languages language ((List.perm_insertionSort _ _).mem_iff.mp hLanguage)
  · rw [List.length_insertionSort]
    exact scanned.languageCount.trans accepted.fileCount
  · exact fun dependency hDependency =>
      declared.dependencies dependency ((List.perm_insertionSort _ _).mem_iff.mp hDependency)
  · rw [List.length_insertionSort]
    exact declared.dependencyCount
  · exact declared.failures
  · exact declared.failureCount.trans accepted.fileCount
  · exact accepted.fileCount

end

end Inspection

end VouchSpec
