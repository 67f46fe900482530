import VouchSpec.Inspection.Capture
import VouchSpec.Inspection.Receipt

/-! What the findings of an analysis leave out: nothing, when no limit of theirs was
reached, and a limit that was reached keeps the receipt from being eligible. -/

namespace VouchSpec

namespace Inspection

open Signing

/-- Where a rule matches. -/
structure Site where
  rule : Rule
  path : String
  line : Nat
deriving DecidableEq

def StaticFinding.site (finding : StaticFinding) : Site := ⟨finding.rule, finding.path, finding.line⟩

def Site.key (site : Site) : Nat ×ₗ String ×ₗ Nat ×ₗ String :=
  toLex (site.rule.severity.order, toLex (site.path, toLex (site.line, site.rule.ruleId)))

/-- Neither limit of the findings was reached. -/
structure Scan.Complete (scan : Scan) : Prop where
  findings : scan.findingLimitReached = false
  perRule : scan.perRuleLimitReached = false

/-- A scan that goes on: it skips these files and, unless it reaches a limit, adds
findings at these sites. -/
structure Scan.Extends (before after : Scan) (added : List Site) (skipped : List SkippedFile) : Prop where
  findings : after.Complete → before.Complete ∧
    after.findings.map StaticFinding.site = before.findings.map StaticFinding.site ++ added
  skipped : after.skipped = before.skipped ++ skipped

namespace Scan.Extends

theorem trans {first second third : Scan} {added more : List Site} {skipped skippedMore : List SkippedFile}
    (hFirst : first.Extends second added skipped) (hSecond : second.Extends third more skippedMore) :
    first.Extends third (added ++ more) (skipped ++ skippedMore) := by
  constructor
  · intro complete
    obtain ⟨hMiddle, hMore⟩ := hSecond.findings complete
    obtain ⟨hStart, hAdded⟩ := hFirst.findings hMiddle
    exact ⟨hStart, by rw [hMore, hAdded, List.append_assoc]⟩
  · rw [hSecond.skipped, hFirst.skipped, List.append_assoc]

/-- A step that leaves the findings and their limits alone. -/
theorem of_same {before after : Scan} {skipped : List SkippedFile} (hFindings : after.findings = before.findings)
    (hLimit : after.findingLimitReached = before.findingLimitReached)
    (hPerRule : after.perRuleLimitReached = before.perRuleLimitReached)
    (hSkipped : after.skipped = before.skipped ++ skipped) : before.Extends after [] skipped := by
  constructor
  · intro complete
    exact ⟨⟨hLimit ▸ complete.findings, hPerRule ▸ complete.perRule⟩, by rw [hFindings, List.append_nil]⟩
  · exact hSkipped

theorem refl (scan : Scan) : scan.Extends scan [] [] :=
  of_same rfl rfl rfl (List.append_nil _).symm

/-- A loop adds what its steps add. -/
theorem foldl {Item : Type} {step : Scan → Item → Scan} {sites : Item → List Site}
    {skips : Item → List SkippedFile}
    (hStep : ∀ (scan : Scan) (item : Item), scan.Extends (step scan item) (sites item) (skips item))
    (items : List Item) (scan : Scan) :
    scan.Extends (items.foldl step scan) (items.flatMap sites) (items.flatMap skips) := by
  induction items generalizing scan with
  | nil => exact refl scan
  | cons item rest ih =>
      rw [List.foldl_cons, List.flatMap_cons, List.flatMap_cons]
      exact (hStep scan item).trans (ih (step scan item))

/-- A loop over the lines of a file skips nothing. -/
theorem foldl_sites {Item : Type} {step : Scan → Item → Scan} {sites : Item → List Site}
    (hStep : ∀ (scan : Scan) (item : Item), scan.Extends (step scan item) (sites item) [])
    (items : List Item) (scan : Scan) : scan.Extends (items.foldl step scan) (items.flatMap sites) [] := by
  have hAll := foldl hStep items scan
  rwa [List.flatMap_eq_nil_iff.mpr fun _ _ => rfl] at hAll

/-- A loop whose steps add nothing. -/
theorem foldl_nil {Item : Type} {step : Scan → Item → Scan}
    (hStep : ∀ (scan : Scan) (item : Item), scan.Extends (step scan item) [] []) (items : List Item) (scan : Scan) :
    scan.Extends (items.foldl step scan) [] [] := by
  have hAll := foldl_sites hStep items scan
  rwa [List.flatMap_eq_nil_iff.mpr fun _ _ => rfl] at hAll

end Scan.Extends

section
variable (lib : Libraries) (limits : ScanLimits)

/-- Where the rules match a line. -/
def lineSites (path : String) (lineNumber : Nat) (line : List Char) : List Site :=
  rules.flatMap fun rule => if lib.search rule.pattern line = true then [⟨rule, path, lineNumber⟩] else []

def linesSites (path : String) (lineNumber : Nat) : List (List Char) → List Site
  | [] => []
  | line :: rest => lineSites lib path lineNumber line ++ linesSites path (lineNumber + 1) rest

/-- The text of a file that is scanned. -/
def scannedText (item : FileData) : Option (List Char) :=
  if isTextCandidate lib item.path item.content = true ∧ item.size ≤ limits.maxTextBytes then
    Bytes.decodeUtf8 item.content
  else none

def fileSites (item : FileData) : List Site :=
  match scannedText lib limits item with
  | some text => linesSites lib item.path 1 (Lines.split text)
  | none => []

/-- The record of a text candidate that is not scanned. -/
def fileSkips (item : FileData) : List SkippedFile :=
  if isTextCandidate lib item.path item.content = false then []
  else if limits.maxTextBytes < item.size then [⟨item.path, .textSizeLimit⟩]
  else if (Bytes.decodeUtf8 item.content).isNone = true then [⟨item.path, .nonUtf8⟩]
  else []

variable {lib limits}

theorem extends_addRequirement (scan : Scan) (kind : Requirement) (evidence : Evidence) :
    scan.Extends (scan.addRequirement limits kind evidence) [] [] := by
  unfold Scan.addRequirement
  split <;> exact Scan.Extends.of_same rfl rfl rfl (List.append_nil _).symm

theorem extends_addUrl (scan : Scan) (url : List Char) : scan.Extends (scan.addUrl lib limits url) [] [] := by
  unfold Scan.addUrl
  split
  · exact Scan.Extends.of_same rfl rfl rfl (List.append_nil _).symm
  · exact Scan.Extends.refl scan
  · split
    · exact Scan.Extends.refl scan
    · simp only
      split
      · exact Scan.Extends.refl scan
      · split <;> exact Scan.Extends.of_same rfl rfl rfl (List.append_nil _).symm

theorem extends_applyRule (path : String) (lineNumber : Nat) (line : List Char) (scan : Scan) (rule : Rule) :
    scan.Extends (scan.applyRule lib limits path lineNumber line rule)
      (if lib.search rule.pattern line = true then [⟨rule, path, lineNumber⟩] else []) [] := by
  unfold Scan.applyRule
  by_cases hMatch : lib.search rule.pattern line = true
  · rw [if_neg (by simp [hMatch]), if_pos hMatch]
    constructor
    · -- A match that is dropped leaves a mark.
      split
      · intro complete
        exact absurd complete.findings (by simp)
      · split
        · intro complete
          exact absurd complete.perRule (by simp)
        · intro complete
          exact ⟨⟨complete.findings, complete.perRule⟩, by rw [List.map_append]; rfl⟩
    · rw [List.append_nil]
      split
      · rfl
      · split <;> rfl
  · rw [if_pos (by simpa using hMatch), if_neg hMatch]
    exact Scan.Extends.refl scan

theorem extends_applyIndicator (lowered : List Char) (evidence : Evidence) (scan : Scan)
    (indicator : Requirement × List String) :
    scan.Extends (scan.applyIndicator limits lowered evidence indicator) [] [] := by
  unfold Scan.applyIndicator
  split
  · exact extends_addRequirement scan indicator.1 evidence
  · exact Scan.Extends.refl scan

theorem extends_scanLine (path : String) (scan : Scan) (line : List Char) (lineNumber : Nat) :
    scan.Extends (scan.scanLine lib limits path line lineNumber) (lineSites lib path lineNumber line) [] := by
  have hUrls := Scan.Extends.foldl_nil (fun scan (found : Match) =>
    @extends_addUrl lib limits scan found.text) (lib.finditer urlPattern line) scan
  have hRules := hUrls.trans (Scan.Extends.foldl_sites
    (@extends_applyRule lib limits path lineNumber line) rules _)
  have hIndicators := hRules.trans (Scan.Extends.foldl_nil (@extends_applyIndicator limits
    (lib.lower (String.ofList line)).toList { path, line := lineNumber, excerpt := redact lib line 140 }) indicators _)
  rw [List.nil_append, List.append_nil] at hIndicators
  exact hIndicators

theorem extends_scanLines (path : String) (lines : List (List Char)) (scan : Scan) (lineNumber : Nat) :
    scan.Extends (scan.scanLines lib limits path lineNumber lines) (linesSites lib path lineNumber lines) [] := by
  induction lines generalizing scan lineNumber with
  | nil => exact Scan.Extends.refl scan
  | cons line rest ih => exact (extends_scanLine path scan line lineNumber).trans (ih _ _)

theorem extends_addLanguage (scan : Scan) (item : FileData) : scan.Extends (scan.addLanguage lib item) [] [] := by
  unfold Scan.addLanguage
  split
  · simp only
    split <;> split
    · exact Scan.Extends.refl scan
    · exact Scan.Extends.of_same rfl rfl rfl (List.append_nil _).symm
    · exact Scan.Extends.refl scan
    · exact Scan.Extends.of_same rfl rfl rfl (List.append_nil _).symm
  · exact Scan.Extends.refl scan

theorem extends_scanFile (scan : Scan) (item : FileData) :
    scan.Extends (scan.scanFile lib limits item) (fileSites lib limits item) (fileSkips lib limits item) := by
  have hLanguage := @extends_addLanguage lib scan item
  unfold Scan.scanFile fileSites scannedText fileSkips
  by_cases hCandidate : isTextCandidate lib item.path item.content = false
  · simpa [hCandidate] using hLanguage
  · rw [if_neg hCandidate, if_neg hCandidate]
    by_cases hLong : limits.maxTextBytes < item.size
    · rw [if_pos hLong, if_pos hLong, if_neg fun h => absurd h.2 (by omega)]
      exact hLanguage.trans (Scan.Extends.of_same rfl rfl rfl rfl)
    · rw [if_neg hLong, if_neg hLong, if_pos ⟨by simpa using hCandidate, by omega⟩]
      cases hText : Bytes.decodeUtf8 item.content with
      | none => exact hLanguage.trans (Scan.Extends.of_same rfl rfl rfl rfl)
      | some text => exact hLanguage.trans (extends_scanLines item.path (Lines.split text) _ 1)

theorem extends_scanSnapshot (snapshot : Snapshot) (skill : ParsedSkill) :
    Scan.Extends {} (scanSnapshot lib limits snapshot skill) (snapshot.files.flatMap (fileSites lib limits))
      (snapshot.files.flatMap (fileSkips lib limits)) := by
  have hFiles := Scan.Extends.foldl (@extends_scanFile lib limits) snapshot.files {}
  unfold scanSnapshot
  simp only
  split
  · have hTools := hFiles.trans (@extends_addRequirement limits _ .processSpawn
      { path := "SKILL.md", line := 1, excerpt := "allowed-tools includes a shell-capable tool".toList })
    rwa [List.append_nil, List.append_nil] at hTools
  · exact hFiles

theorem mem_lineSites {site : Site} {path : String} {lineNumber : Nat} {line : List Char} :
    site ∈ lineSites lib path lineNumber line ↔
      site.rule ∈ rules ∧ lib.search site.rule.pattern line = true ∧ site.path = path ∧ site.line = lineNumber := by
  simp only [lineSites, List.mem_flatMap]
  constructor
  · rintro ⟨rule, hRule, hSite⟩
    split at hSite
    · next hMatch =>
        obtain rfl := List.mem_singleton.mp hSite
        exact ⟨hRule, hMatch, rfl, rfl⟩
    · cases hSite
  · rintro ⟨hRule, hMatch, rfl, rfl⟩
    exact ⟨site.rule, hRule, by rw [if_pos hMatch]; exact List.mem_singleton_self _⟩

theorem mem_linesSites {site : Site} {path : String} {lines : List (List Char)} {lineNumber : Nat} :
    site ∈ linesSites lib path lineNumber lines ↔ site.rule ∈ rules ∧ site.path = path ∧
      ∃ index line, lines[index]? = some line ∧ site.line = lineNumber + index ∧
        lib.search site.rule.pattern line = true := by
  induction lines generalizing lineNumber with
  | nil => simp [linesSites]
  | cons first rest ih =>
      rw [linesSites, List.mem_append, mem_lineSites, ih]
      constructor
      · rintro (⟨hRule, hMatch, hPath, hLine⟩ | ⟨hRule, hPath, index, line, hFound, hLine, hMatch⟩)
        · exact ⟨hRule, hPath, 0, first, rfl, hLine, hMatch⟩
        · exact ⟨hRule, hPath, index + 1, line, hFound, by omega, hMatch⟩
      · rintro ⟨hRule, hPath, index, line, hFound, hLine, hMatch⟩
        cases index with
        | zero =>
            obtain rfl := Option.some.inj hFound
            exact Or.inl ⟨hRule, hMatch, hPath, hLine⟩
        | succ index => exact Or.inr ⟨hRule, hPath, index, line, hFound, by omega, hMatch⟩

/-- A rule matches a line of a scanned file. -/
def Matches (lib : Libraries) (limits : ScanLimits) (snapshot : Snapshot) (site : Site) : Prop :=
  site.rule ∈ rules ∧ ∃ file ∈ snapshot.files, file.path = site.path ∧
    ∃ text, scannedText lib limits file = some text ∧ ∃ index line, (Lines.split text)[index]? = some line ∧
      site.line = index + 1 ∧ lib.search site.rule.pattern line = true

theorem mem_fileSites {site : Site} {snapshot : Snapshot} :
    site ∈ snapshot.files.flatMap (fileSites lib limits) ↔ Matches lib limits snapshot site := by
  simp only [List.mem_flatMap, Matches]
  constructor
  · rintro ⟨file, hFile, hSite⟩
    unfold fileSites at hSite
    split at hSite
    · next text hText =>
        obtain ⟨hRule, hPath, index, line, hFound, hLine, hMatch⟩ := mem_linesSites.mp hSite
        exact ⟨hRule, file, hFile, hPath.symm, text, hText, index, line, hFound, by omega, hMatch⟩
    · cases hSite
  · rintro ⟨hRule, file, hFile, hPath, text, hText, index, line, hFound, hLine, hMatch⟩
    refine ⟨file, hFile, ?_⟩
    rw [fileSites, hText]
    exact mem_linesSites.mpr ⟨hRule, hPath.symm, index, line, hFound, by omega, hMatch⟩

theorem rules_nodup : (rules.map Rule.ruleId).Nodup := by decide

theorem nodup_lineSites (path : String) (lineNumber : Nat) (line : List Char) :
    (lineSites lib path lineNumber line).Nodup := by
  rw [lineSites, List.nodup_flatMap]
  constructor
  · intro rule hRule
    split <;> simp
  · refine List.Pairwise.imp ?_ (List.Nodup.of_map _ rules_nodup)
    intro first second hDistinct
    show List.Disjoint _ _
    intro site hFirst hSecond
    beta_reduce at hFirst hSecond
    split at hFirst
    · split at hSecond
      · rw [List.mem_singleton.mp hFirst] at hSecond
        exact hDistinct (congrArg Site.rule (List.mem_singleton.mp hSecond))
      · cases hSecond
    · cases hFirst

theorem nodup_linesSites (path : String) (lines : List (List Char)) (lineNumber : Nat) :
    (linesSites lib path lineNumber lines).Nodup := by
  induction lines generalizing lineNumber with
  | nil => exact List.nodup_nil
  | cons line rest ih =>
      rw [linesSites, List.nodup_append]
      refine ⟨nodup_lineSites path lineNumber line, ih (lineNumber + 1), ?_⟩
      intro site hFirst other hOther hSame
      obtain ⟨-, -, -, hLine⟩ := mem_lineSites.mp hFirst
      obtain ⟨-, -, index, -, -, hOtherLine, -⟩ := mem_linesSites.mp hOther
      rw [hSame] at hLine
      omega

/-- Every match is at a site of its own. -/
theorem nodup_fileSites {snapshot : Snapshot} (hPaths : (snapshot.files.map FileData.path).Nodup) :
    (snapshot.files.flatMap (fileSites lib limits)).Nodup := by
  rw [List.nodup_flatMap]
  constructor
  · intro file hFile
    unfold fileSites
    split
    · exact nodup_linesSites _ _ _
    · exact List.nodup_nil
  · refine List.Pairwise.imp ?_ (List.pairwise_map.mp hPaths)
    intro first second hDistinct
    show List.Disjoint _ _
    intro site hFirst hSecond
    have hPathOf : ∀ file : FileData, site ∈ fileSites lib limits file → site.path = file.path := by
      intro file hSite
      unfold fileSites at hSite
      split at hSite
      · exact (mem_linesSites.mp hSite).2.1
      · cases hSite
    exact hDistinct ((hPathOf first hFirst).symm.trans (hPathOf second hSecond))

end

end Inspection

end VouchSpec
