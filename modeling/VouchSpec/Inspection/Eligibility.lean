import VouchSpec.Inspection.Coverage
import VouchSpec.Inspection.References
import VouchSpec.Inspection.Sample

/-! What an eligible receipt stands for, and when its findings are all there are. -/

namespace VouchSpec

namespace Inspection

open Signing

/-- The candidate limit was not reached by the references of a body. -/
def ReferencesTaken (lib : Libraries) (limits : ScanLimits) (frontmatter : Frontmatter) : Prop :=
  (collectCandidates lib limits.maxReferences [] false frontmatter.bodyStartLine
    (Lines.split frontmatter.body)).2 = false

/-- All structural findings of the skill, before their list is cut. -/
def Uncut (lib : Libraries) (limits : ScanLimits) (snapshot : Snapshot) (frontmatter : Frontmatter)
    (findings : List Finding) : Prop :=
  ∃ skillFile text references, snapshot.get? "SKILL.md" = some skillFile ∧
    Bytes.decodeUtf8 skillFile.content = some text ∧ Char.ofNat 0 ∉ text ∧
    parseFrontmatter lib text = .ok frontmatter ∧
    readSkill lib limits snapshot text = .ok (frontmatter.metadata, findings, references)

/-- Nothing was left out of an inspection: what an eligible receipt stands for. -/
structure Covered (lib : Libraries) (limits : ScanLimits) (inspected : Inspected) : Prop where
  valid : inspected.parsed.structureValid = true
  structural : ∃ frontmatter findings, Uncut lib limits inspected.snapshot frontmatter findings ∧
    findings.length ≤ limits.maxFindings ∧ ReferencesTaken lib limits frontmatter
  scanned : ∀ file ∈ inspected.snapshot.files, isTextCandidate lib file.path file.content = true →
    ∃ text, scannedText lib limits file = some text
  unmatched : ∀ file ∈ inspected.snapshot.files, isTextCandidate lib file.path file.content = true →
    ∀ text, Bytes.decodeUtf8 file.content = some text → ∀ line ∈ Lines.split text, ∀ rule ∈ rules,
      rule.severity = .critical ∨ rule.severity = .high → lib.search rule.pattern line = false
  skipped : inspected.static.skippedTextFiles = []
  findingLimit : inspected.static.findingLimitReached = false
  perRuleLimit : inspected.static.perRuleLimitReached = false
  dependencyLimit : inspected.static.dependencyLimitReached = false
  hostLimit : inspected.static.referencedHostLimitReached = false
  evidenceLimits : inspected.static.requirementEvidenceLimits = []

/-- The findings are the matches, each once, in order. -/
structure Exact (lib : Libraries) (limits : ScanLimits) (inspected : Inspected) : Prop where
  sites : ∀ site, site ∈ inspected.static.findings.map StaticFinding.site ↔ Matches lib limits inspected.snapshot site
  ordered : (inspected.static.findings.map StaticFinding.key).Pairwise (· < ·)

section
variable {t : Toolkit} {lib : Libraries} {runtime : Runtime} {limits : ScanLimits}

/-- What the result of an analysis comes from. -/
theorem analyzeStatic_eq_ok {snapshot : Snapshot} {skill : ParsedSkill} {static : StaticAnalysis}
    (h : analyzeStatic lib limits snapshot skill = .ok static) :
    static.findings = (scanSnapshot lib limits snapshot skill).findings.insertionSort
        (fun first second => first.key ≤ second.key) ∧
      static.skippedTextFiles = (scanSnapshot lib limits snapshot skill).skipped ∧
      static.findingLimitReached = (scanSnapshot lib limits snapshot skill).findingLimitReached ∧
      static.perRuleLimitReached = (scanSnapshot lib limits snapshot skill).perRuleLimitReached := by
  simp only [analyzeStatic, Except.bind_eq_ok_iff, Except.pure_eq_ok_iff] at h
  obtain ⟨manifests, -, rfl⟩ := h
  exact ⟨rfl, rfl, rfl, rfl⟩

/-- Without a limit of theirs, the findings are at the sites of the files. -/
theorem findings_sites {snapshot : Snapshot} {skill : ParsedSkill} {static : StaticAnalysis}
    (h : analyzeStatic lib limits snapshot skill = .ok static) (hLimit : static.findingLimitReached = false)
    (hPerRule : static.perRuleLimitReached = false) :
    (static.findings.map StaticFinding.site).Perm (snapshot.files.flatMap (fileSites lib limits)) := by
  obtain ⟨hFindings, -, hFindingFlag, hRuleFlag⟩ := analyzeStatic_eq_ok h
  obtain ⟨-, hSites⟩ := (@extends_scanSnapshot lib limits snapshot skill).findings
    ⟨hFindingFlag ▸ hLimit, hRuleFlag ▸ hPerRule⟩
  have hPerm := (List.perm_insertionSort (fun first second : StaticFinding => first.key ≤ second.key)
    (scanSnapshot lib limits snapshot skill).findings).map StaticFinding.site
  rw [hFindings]
  exact hPerm.trans (List.Perm.of_eq hSites)

/-- A site has a key of its own. -/
theorem site_eq_of_key {first second : Site} (hFirst : first.rule ∈ rules) (hSecond : second.rule ∈ rules)
    (hKey : first.key = second.key) : first = second := by
  simp only [Site.key, EmbeddingLike.apply_eq_iff_eq, Prod.mk.injEq] at hKey
  obtain ⟨-, hPath, hLine, hRule⟩ := hKey
  have hSame := List.inj_on_of_nodup_map rules_nodup hFirst hSecond hRule
  cases first
  cases second
  simp_all

/-- The findings are exact when no limit of theirs was reached. -/
theorem exact_of_complete {inspected : Inspected} (accepted : inspected.snapshot.Accepted t.toPlatform limits)
    (h : analyzeStatic lib limits inspected.snapshot inspected.parsed = .ok inspected.static)
    (hLimit : inspected.static.findingLimitReached = false)
    (hPerRule : inspected.static.perRuleLimitReached = false) : Exact lib limits inspected := by
  have hPerm := findings_sites h hLimit hPerRule
  have hNodup := hPerm.nodup_iff.mpr (nodup_fileSites accepted.paths)
  have hSites : ∀ site, site ∈ inspected.static.findings.map StaticFinding.site ↔
      Matches lib limits inspected.snapshot site :=
    fun site => hPerm.mem_iff.trans mem_fileSites
  refine ⟨hSites, ?_⟩
  have hSorted : (inspected.static.findings.map StaticFinding.key).Pairwise (· ≤ ·) := by
    rw [(analyzeStatic_eq_ok h).1, List.pairwise_map]
    exact List.pairwise_insertionSort (fun first second : StaticFinding => first.key ≤ second.key) _
  have hKeys : (inspected.static.findings.map StaticFinding.key).Nodup := by
    have hMap : inspected.static.findings.map StaticFinding.key =
        (inspected.static.findings.map StaticFinding.site).map Site.key := by
      rw [List.map_map]
      rfl
    rw [hMap]
    refine hNodup.map_on ?_
    intro first hFirst second hSecond hKey
    exact site_eq_of_key ((hSites first).mp hFirst).1 ((hSites second).mp hSecond).1 hKey
  exact (hSorted.and hKeys).imp fun h => lt_of_le_of_ne h.1 h.2

/-- Skipping nothing, an analysis scans every text candidate. -/
theorem scannedText_of_unskipped {snapshot : Snapshot} {skill : ParsedSkill} {static : StaticAnalysis}
    (h : analyzeStatic lib limits snapshot skill = .ok static) (hSkipped : static.skippedTextFiles = []) {file : FileData}
    (hFile : file ∈ snapshot.files) (hCandidate : isTextCandidate lib file.path file.content = true) :
    ∃ text, scannedText lib limits file = some text := by
  have hNone := (@extends_scanSnapshot lib limits snapshot skill).skipped
  rw [← (analyzeStatic_eq_ok h).2.1, hSkipped, List.nil_append] at hNone
  have hFileSkips := List.flatMap_eq_nil_iff.mp hNone.symm file hFile
  unfold fileSkips at hFileSkips
  rw [if_neg (by simp [hCandidate])] at hFileSkips
  split at hFileSkips
  · cases hFileSkips
  · next hShort =>
      split at hFileSkips
      · cases hFileSkips
      · next hDecodes =>
          rw [scannedText, if_pos ⟨hCandidate, by omega⟩]
          exact Option.ne_none_iff_exists'.mp (by simpa using hDecodes)

/-- A match on a line of a scanned file is among the findings, when none was dropped. -/
theorem count_ne_zero_of_match {snapshot : Snapshot} {skill : ParsedSkill} {static : StaticAnalysis}
    (h : analyzeStatic lib limits snapshot skill = .ok static) (hLimit : static.findingLimitReached = false)
    (hPerRule : static.perRuleLimitReached = false) {file : FileData} (hFile : file ∈ snapshot.files)
    {text : List Char} (hText : scannedText lib limits file = some text) {line : List Char}
    (hLine : line ∈ Lines.split text) {rule : Rule} (hRule : rule ∈ rules)
    (hMatch : lib.search rule.pattern line = true) : static.count rule.severity ≠ 0 := by
  obtain ⟨index, hIndex⟩ := List.mem_iff_getElem?.mp hLine
  have hMatches : Matches lib limits snapshot ⟨rule, file.path, index + 1⟩ :=
    ⟨hRule, file, hFile, rfl, text, hText, index, line, hIndex, rfl, hMatch⟩
  have hListed := (findings_sites h hLimit hPerRule).mem_iff.mpr (mem_fileSites.mpr hMatches)
  obtain ⟨finding, hFinding, hSite⟩ := List.mem_map.mp hListed
  have hSeverity : finding.rule.severity = rule.severity := congrArg (fun site => site.rule.severity) hSite
  exact Nat.pos_iff_ne_zero.mp (List.countP_pos_iff.mpr ⟨finding, hFinding, decide_eq_true hSeverity⟩)

/-- A candidate limit that was reached is an error. -/
theorem taken_of_noError {snapshot : Snapshot} {frontmatter : Frontmatter} {references : References}
    (h : extractReferences lib limits frontmatter.body snapshot frontmatter.bodyStartLine = .ok references)
    (hNoError : references.findings.any Finding.isError = false) : ReferencesTaken lib limits frontmatter := by
  unfold extractReferences at h
  unfold ReferencesTaken
  by_contra hReached
  generalize collectCandidates lib limits.maxReferences [] false frontmatter.bodyStartLine
    (Lines.split frontmatter.body) = collected at h hReached
  obtain ⟨candidates, reached⟩ := collected
  obtain rfl : reached = true := by simpa using hReached
  have hKept := loop_findings h _ (List.mem_singleton_self _)
  exact absurd (List.any_eq_false.mp hNoError _ hKept) (by simp [finding, findingOf, Finding.isError])

theorem any_insertionSort (findings : List Finding) :
    (findings.insertionSort fun first second => first.key ≤ second.key).any Finding.isError =
      findings.any Finding.isError :=
  (List.perm_insertionSort _ _).any_eq

/-- The findings of a skill that are kept are valid exactly when all are, and there
are not too many. -/
theorem any_capFindings (findings : List Finding) :
    (capFindings limits findings).any Finding.isError = false ↔
      findings.any Finding.isError = false ∧ findings.length ≤ limits.maxFindings := by
  unfold capFindings
  split
  · next hLong =>
      constructor
      · intro hNone
        simp [List.any_append, finding, findingOf, Finding.isError] at hNone
      · rintro ⟨-, hShort⟩
        omega
  · next hShort =>
      constructor
      · intro hNone
        exact ⟨hNone, by omega⟩
      · exact And.left

theorem structureValid_eq_true {parsed : ParsedSkill} :
    parsed.structureValid = true ↔ parsed.structuralFindings.any Finding.isError = false := by
  rw [ParsedSkill.structureValid, Bool.not_eq_true']

/-- A skill is valid exactly when the list of its findings has no error before it is cut,
and is not cut. -/
theorem valid_iff_of_uncut {snapshot : Snapshot} {parsed : ParsedSkill} {frontmatter : Frontmatter}
    {findings : List Finding} (h : parseSkill lib limits snapshot = .ok parsed)
    (uncut : Uncut lib limits snapshot frontmatter findings) :
    parsed.structureValid = true ↔ findings.any Finding.isError = false ∧ findings.length ≤ limits.maxFindings := by
  obtain ⟨skillFile, text, references, hFile, hText, hNul, -, hRead⟩ := uncut
  simp only [parseSkill, hFile, hText, if_neg hNul, hRead, bind, Except.bind, Except.pure_eq_ok_iff] at h
  rw [← h, structureValid_eq_true]
  exact any_capFindings findings

theorem taken_of_uncut {snapshot : Snapshot} {frontmatter : Frontmatter} {findings : List Finding}
    (uncut : Uncut lib limits snapshot frontmatter findings) (hNoError : findings.any Finding.isError = false) :
    ReferencesTaken lib limits frontmatter := by
  obtain ⟨skillFile, text, references, -, -, -, hFrontmatter, hRead⟩ := uncut
  simp only [readSkill, hFrontmatter, Except.bind_eq_ok_iff, Except.pure_eq_ok_iff, Prod.mk.injEq] at hRead
  obtain ⟨other, hOther, found, hReferences, -, hFindings, -⟩ := hRead
  obtain rfl := Except.ok.inj hOther
  rw [← hFindings, any_insertionSort, List.any_append] at hNoError
  exact taken_of_noError hReferences (Bool.or_eq_false_iff.mp hNoError).2

/-- A valid skill was read, and its findings were not cut. -/
theorem uncut_of_valid {snapshot : Snapshot} {parsed : ParsedSkill} (h : parseSkill lib limits snapshot = .ok parsed)
    (hValid : parsed.structureValid = true) : ∃ frontmatter findings, Uncut lib limits snapshot frontmatter findings := by
  have hUnreadable : ∀ ruleId message, (unreadable ruleId message).structureValid = false := by
    intro ruleId message
    simp [unreadable, ParsedSkill.structureValid, finding, findingOf, Finding.isError]
  unfold parseSkill at h
  cases hFile : snapshot.get? "SKILL.md" with
  | none =>
      rw [hFile] at h
      rw [← Except.ok.inj h, hUnreadable] at hValid
      cases hValid
  | some skillFile =>
      rw [hFile] at h
      simp only at h
      cases hText : Bytes.decodeUtf8 skillFile.content with
      | none =>
          rw [hText] at h
          rw [← Except.ok.inj h, hUnreadable] at hValid
          cases hValid
      | some text =>
          rw [hText] at h
          simp only at h
          by_cases hNul : Char.ofNat 0 ∈ text
          · rw [if_pos hNul] at h
            rw [← Except.pure_eq_ok_iff.mp h, hUnreadable] at hValid
            cases hValid
          · rw [if_neg hNul] at h
            simp only [Except.bind_eq_ok_iff, Prod.exists] at h
            obtain ⟨metadata, findings, references, hRead, -⟩ := h
            have hParts := hRead
            simp only [readSkill, Except.bind_eq_ok_iff, Except.pure_eq_ok_iff, Prod.mk.injEq] at hParts
            obtain ⟨frontmatter, hFrontmatter, -, -, rfl, -, -⟩ := hParts
            exact ⟨frontmatter, findings, skillFile, text, references, hFile, hText, hNul, hFrontmatter, hRead⟩

/-- An eligible inspection left nothing out. -/
theorem covered_of_eligible {inspected : Inspected}
    (hParsed : parseSkill lib limits inspected.snapshot = .ok inspected.parsed)
    (h : analyzeStatic lib limits inspected.snapshot inspected.parsed = .ok inspected.static)
    (hEligible : decision inspected.parsed inspected.static = .eligible) : Covered lib limits inspected := by
  unfold decision at hEligible
  split at hEligible
  · cases hEligible
  · next hValid =>
      split at hEligible
      · cases hEligible
      · next hCounts =>
          split at hEligible
          · cases hEligible
          · next hPartial =>
              simp only [StaticAnalysis.isPartial, Bool.or_eq_true, not_or, Bool.not_eq_true, Bool.not_eq_false',
                List.isEmpty_iff] at hPartial
              obtain ⟨⟨⟨⟨⟨⟨⟨hSkipped, -⟩, hLimit⟩, hPerRule⟩, hDependencies⟩, hHosts⟩, -⟩, hEvidence⟩ := hPartial
              have hScanned := fun file hFile hCandidate =>
                @scannedText_of_unskipped lib limits _ _ _ h hSkipped file hFile hCandidate
              have hNoEvidence : inspected.static.requirementEvidenceLimits = [] := by
                rw [List.any_eq_false] at hEvidence
                refine List.eq_nil_iff_forall_not_mem.mpr fun kind hKind => ?_
                exact absurd hKind (by simpa using hEvidence kind (by cases kind <;> decide))
              have hStructure : inspected.parsed.structureValid = true := by simpa using hValid
              obtain ⟨frontmatter, findings, uncut⟩ := uncut_of_valid hParsed hStructure
              obtain ⟨hNoError, hFew⟩ := (valid_iff_of_uncut hParsed uncut).mp hStructure
              refine ⟨hStructure, ⟨frontmatter, findings, uncut, hFew, taken_of_uncut uncut hNoError⟩, hScanned, ?_,
                hSkipped, hLimit, hPerRule, hDependencies, hHosts, hNoEvidence⟩
              intro file hFile hCandidate text hDecoded line hLine rule hRule hSeverity
              obtain ⟨scanned, hText⟩ := hScanned file hFile hCandidate
              obtain rfl : text = scanned := by
                unfold scannedText at hText
                split at hText
                · exact Option.some.inj (hDecoded.symm.trans hText)
                · cases hText
              by_contra hMatch
              have hCount := count_ne_zero_of_match h hLimit hPerRule hFile hText hLine hRule (by simpa using hMatch)
              rcases hSeverity with hCritical | hHigh
              · exact hCounts (Or.inl (hCritical ▸ hCount))
              · exact hCounts (Or.inr (hHigh ▸ hCount))

/-- What a receipt says of the inspection it is of. -/
structure Reports (receipt : Json) (inspected : Inspected) : Prop where
  decision : valueAt receipt ["decision", "status"] =
    .ok (.str (Inspection.decision inspected.parsed inspected.static).status)
  findings : valueAt receipt ["static_analysis", "findings"] =
    .ok (.arr (inspected.static.findings.map StaticFinding.json))
  counts : ∀ severity : RuleSeverity, valueAt receipt ["static_analysis", "summary", severity.name] =
    .ok (.int (inspected.static.findings.countP fun finding => finding.rule.severity = severity))
  total : valueAt receipt ["static_analysis", "summary", "total"] = .ok (.int inspected.static.findings.length)
  findingLimit : valueAt receipt ["static_analysis", "coverage", "finding_limit_reached"] =
    .ok (.bool inspected.static.findingLimitReached)
  perRuleLimit : valueAt receipt ["static_analysis", "coverage", "per_rule_limit_reached"] =
    .ok (.bool inspected.static.perRuleLimitReached)
  format : valueAt receipt ["format_validation", "status"] =
    .ok (.str (if inspected.parsed.structureValid = true then "pass" else "fail"))

theorem reports_of_core {core : List (String × Json)} {inspected : Inspected} {timestamp expiresAt : Int}
    {provenance : Option ProvenanceEvidence} {independentStaticScan : Bool}
    (h : receiptCore t lib runtime limits inspected timestamp expiresAt provenance independentStaticScan = .ok core) :
    Reports (sealReceipt t.toPlatform core) inspected := by
  simp only [receiptCore, Except.bind_eq_ok_iff, Except.pure_eq_ok_iff] at h
  obtain ⟨artifact, -, formatValidation, hFormat, license, -, staticAnalysis, hStatic, rfl⟩ := h
  simp only [formatValidationJson, StaticAnalysis.json, Except.bind_eq_ok_iff, Except.pure_eq_ok_iff] at hFormat hStatic
  obtain ⟨findings, -, rfl⟩ := hFormat
  obtain ⟨dependencies, -, rfl⟩ := hStatic
  constructor
  · rfl
  · rfl
  · intro severity
    cases severity <;> rfl
  · rfl
  · rfl
  · rfl
  · rfl

theorem status_eligible {decision : Decision} (h : decision.status = "eligible-for-policy-evaluation") :
    decision = .eligible := by
  cases decision with
  | eligible => rfl
  | _ => exact absurd h (by decide)

/-- An eligible receipt leaves nothing out; the findings of a receipt that reached no
limit of theirs are all matches; and an invalid skill stays so when its findings are
cut. -/
theorem no_silent_truncation (t : Toolkit) (lib : Libraries) (runtime : Runtime) (limits : ScanLimits) (clock : Clock)
    (root : List String) (tree : Option Entry) (generatedAt : Option String) (expiresInDays : Int)
    (provenance : Option ProvenanceEvidence) (independentStaticScan : Bool) (receipt : Json)
    (hReceipt : inspectSkill t lib runtime limits clock root tree generatedAt expiresInDays provenance
      independentStaticScan = .ok receipt) :
    ∃ times inspected, inspect t lib limits root tree times = .ok inspected ∧ Reports receipt inspected ∧
      (valueAt receipt ["decision", "status"] = .ok (.str "eligible-for-policy-evaluation") →
        Covered lib limits inspected) ∧
      (valueAt receipt ["static_analysis", "coverage", "finding_limit_reached"] = .ok (.bool false) →
        valueAt receipt ["static_analysis", "coverage", "per_rule_limit_reached"] = .ok (.bool false) →
        Exact lib limits inspected) ∧
      ∀ frontmatter findings, Uncut lib limits inspected.snapshot frontmatter findings →
        findings.any Finding.isError = true → inspected.parsed.structureValid = false := by
  simp only [inspectSkill, Except.bind_eq_ok_iff, require_eq_ok, exists_const, Except.pure_eq_ok_iff] at hReceipt
  obtain ⟨-, timestamp, -, inspected, hInspected, -, core, hCore, rfl⟩ := hReceipt
  have reports := reports_of_core hCore
  refine ⟨_, inspected, hInspected, reports, ?_⟩
  simp only [inspect, Except.bind_eq_ok_iff, Except.pure_eq_ok_iff] at hInspected
  obtain ⟨snapshot, hSnapshot, parsed, hParsed, static, hStatic, rfl⟩ := hInspected
  refine ⟨?_, ?_, ?_⟩
  · intro hStatus
    rw [reports.decision] at hStatus
    exact covered_of_eligible hParsed hStatic (status_eligible (Json.str.inj (Except.ok.inj hStatus)))
  · intro hLimit hPerRule
    rw [reports.findingLimit] at hLimit
    rw [reports.perRuleLimit] at hPerRule
    exact exact_of_complete (accepted_of_collectSnapshot hSnapshot) hStatic (Json.bool.inj (Except.ok.inj hLimit))
      (Json.bool.inj (Except.ok.inj hPerRule))
  · intro frontmatter findings uncut hError
    by_contra hValid
    have hNone := ((valid_iff_of_uncut hParsed uncut).mp (by simpa using hValid)).1
    rw [hError] at hNone
    cases hNone

end

/-- The receipt of a small skill is eligible, so nothing was left out of it. -/
theorem no_silent_truncation_demo : ∃ receipt times inspected,
    inspectSkill Toolkit.standard Sample.libraries Sample.runtime Sample.limits Sample.clock Sample.root
      (some (Sample.treeOf Sample.skillText)) none 7 none false = .ok receipt ∧
    inspect Toolkit.standard Sample.libraries Sample.limits Sample.root (some (Sample.treeOf Sample.skillText)) times =
      .ok inspected ∧
    Covered Sample.libraries Sample.limits inspected := by
  obtain ⟨receipt, hReceipt⟩ := Sample.inspectSkill_sample Toolkit.standard Sample.runtime Sample.clock
  obtain ⟨times, inspected, hInspected, reports, hEligible, -, -⟩ :=
    no_silent_truncation Toolkit.standard Sample.libraries Sample.runtime Sample.limits Sample.clock Sample.root
      (some (Sample.treeOf Sample.skillText)) none 7 none false receipt hReceipt
  refine ⟨receipt, times, inspected, hReceipt, hInspected, hEligible ?_⟩
  rw [Sample.inspect_sample] at hInspected
  rw [reports.decision, ← Except.ok.inj hInspected]
  rfl

end Inspection

end VouchSpec
