import VouchSpec.Inspection.Sample
import VouchSpec.Inspection.ScanBounds
import VouchSpec.Library.Loops

/-! When a receipt satisfies the schema it is published under. The inspector sees to
most of its bounds; the others are listed in `Conforms`, and nothing else is asked. -/

namespace VouchSpec

namespace Inspection

open Schema ReceiptSchema

/-- A full hexadecimal commit, after which a line feed can stand. -/
def IsCommit (commit : String) : Prop :=
  ∃ found : List Char, (found.length = 40 ∨ found.length = 64) ∧ (∀ c ∈ found, Bytes.isHexDigit c = true) ∧
    (commit.toList = found ∨ commit.toList = found ++ [Char.ofNat 10])

/-- A provenance that the schema admits. -/
structure ProvenanceEvidence.Conforms (provenance : ProvenanceEvidence) : Prop where
  repository : 1 ≤ provenance.repositoryUrl.toList.length ∧ provenance.repositoryUrl.toList.length ≤ 2048
  commit : provenance.commit = "not-checked" ∨ IsCommit provenance.commit
  path : Placed provenance.artifactPath
  method : provenance.method = "exact-local-git-blob-match-v1"

/-- Versions that are given, and short. -/
def Runtime.Named (runtime : Runtime) : Prop :=
  ∀ name ∈ [runtime.implementation, runtime.python, runtime.pyyaml, runtime.mcp],
    1 ≤ name.toList.length ∧ name.toList.length ≤ 50

/-- What the schema asks of a receipt and the inspector does not see to. -/
structure Conforms (lib : Libraries) (runtime : Runtime) (provenance : Option ProvenanceEvidence) (inspected : Inspected) :
    Prop where
  excludedCount : inspected.snapshot.excludedPaths.length ≤ 20
  excluded : ∀ path ∈ inspected.snapshot.excludedPaths, Placed path
  references : ∀ reference ∈ inspected.parsed.localReferences, Placed (String.ofList reference.path)
  licenses : ((inspected.snapshot.files.map FileData.path).filter (isLicenseFile lib)).length ≤ 100
  dependencies : ∀ dependency ∈ inspected.static.dependencies, dependency.declaration ≠ []
  languages : ∀ language ∈ inspected.static.scriptLanguages, language.toList.length ≤ 100
  hosts : ∀ host ∈ inspected.static.referencedHosts, 1 ≤ host.toList.length ∧ host.toList.length ≤ 253
  runtime : runtime.Named
  provenance : ∀ evidence, provenance = some evidence → evidence.Conforms

theorem path_valid {path : String} : ReceiptSchema.path.valid (.str path) = true ↔ Placed path := by
  rw [ReceiptSchema.path, text_valid, Placed, Nat.one_le_iff_ne_zero, Ne, List.length_eq_zero_iff, String.toList_eq_nil_iff]

theorem hexDigits_valid {count : Nat} {digits : String} (hLength : digits.toList.length = count)
    (hDigits : ∀ c ∈ digits.toList, Bytes.isHexDigit c = true) :
    (matching (Regex.anchored (hexDigits count))).valid (.str digits) = true :=
  matching_valid.mpr ⟨digits, rfl, Regex.anchored_of_mem
    (Regex.mem_times_one.mpr ⟨hLength.ge, hLength.le, hDigits⟩)⟩

theorem hexdigest_digits (digest : Digest) : ∀ c ∈ digest.hexdigest.toList, Bytes.isHexDigit c = true := by
  rw [Digest.hexdigest, String.toList_ofList]
  exact Bytes.hex_isHexDigit digest.bytes

theorem sha256_valid (digest : Digest) : sha256.valid (.str digest.hexdigest) = true :=
  hexDigits_valid digest.hexdigest_length (hexdigest_digits digest)

theorem dateTime_valid (value : String) : dateTime.valid (.str value) = true := by
  simp [dateTime, valid, Json.typeName]

theorem boolean_valid (value : Bool) : (type [.boolean]).valid (.bool value) = true := by
  simp [valid, Json.typeName]

theorem line_valid {number : Nat} (h : IsLine number) : (atLeast 1).valid (.int number) = true :=
  atLeast_valid.mpr (by exact_mod_cast h.1)

theorem strings_valid {most : Nat} {item : Schema} {values : List String} :
    (list most item).valid (strings values) = true ↔
      values.length ≤ most ∧ ∀ value ∈ values, item.valid (.str value) = true := by
  rw [strings, list_valid, List.length_map, List.forall_mem_map]

/-- A text that is serialised keeps its length. -/
theorem encoded_eq_ok {text : Text} {json : Json} (h : encoded text = .ok json) :
    ∃ value : String, json = .str value ∧ value.toList.length = text.length := by
  unfold encoded at h
  split at h
  · next value hValue =>
      obtain rfl := Except.ok.inj h
      rw [Text.encode?_eq_some] at hValue
      exact ⟨value, rfl, by rw [hValue, Text.ofString, List.length_map]⟩
  · cases h

theorem claim_valid {value : Value} {limit : Nat} {json : Json} (h : encodedClaim (safeClaim value limit) = .ok json) :
    (claim limit).valid json = true := by
  rw [claim, allOf_valid]
  cases hClaim : safeClaim value limit with
  | none =>
      rw [hClaim] at h
      obtain rfl := Except.ok.inj h
      simp [valid, Json.typeName]
  | some text =>
      rw [hClaim] at h
      obtain ⟨shown, rfl, hLength⟩ := encoded_eq_ok h
      have hShort : text.length ≤ limit := by
        cases value with
        | text found =>
            obtain rfl := Option.some.inj hClaim
            exact List.length_take_le _ _
        | _ => cases hClaim
      simp [valid, Json.typeName, hLength, hShort]

section
variable {p : Platform} {lib : Libraries} {limits : ScanLimits}

theorem fileEntry_valid {file : FileData} (good : GoodFile p limits file) : fileEntry.valid file.json = true := by
  have hCeiling := limits.ceilings
  have hSize := good.bounded
  rw [fileEntry, FileData.json, total_valid rfl (by decide)]
  simp only [List.zip_cons_cons, List.zip_nil_left, List.forall_mem_cons, List.not_mem_nil, false_implies, implies_true,
    and_true, path_valid, integer_int_valid, good.sha256, sha256_valid]
  exact ⟨good.path.placed, by omega, by omega⟩

theorem claimsUntrusted_valid {metadata : Value} {claims : Json} (h : claimsJson metadata = .ok claims) :
    claimsUntrusted.valid claims = true := by
  simp only [claimsJson, Except.bind_eq_ok_iff, Except.pure_eq_ok_iff] at h
  obtain ⟨name, hName, description, hDescription, compatibility, hCompatibility, tools, hTools, rfl⟩ := h
  rw [claimsUntrusted, total_valid rfl (by decide)]
  simp only [List.zip_cons_cons, List.zip_nil_left, List.forall_mem_cons, List.not_mem_nil, false_implies, implies_true,
    and_true, claim_valid hName, claim_valid hDescription, claim_valid hCompatibility, claim_valid hTools]
  exact text_literal rfl (by decide)

theorem scope_valid {snapshot : Snapshot}
    (hSource : snapshot.times.source ∈ ["system-clock", "caller-supplied-reproducibility-override"]) :
    scope.valid (scopeJson snapshot) = true ↔
      snapshot.excludedPaths.length ≤ 20 ∧ ∀ path ∈ snapshot.excludedPaths, Placed path := by
  have hConsistency : (text 1 200).valid
      (.str "opened-handle identity checked and entry inventory re-enumerated") = true := text_literal rfl (by decide)
  rw [scope, scopeJson, total_valid rfl (by decide)]
  simp only [List.zip_cons_cons, List.zip_nil_left, List.forall_mem_cons, List.not_mem_nil, false_implies, implies_true,
    and_true, true_and, const_str_valid, hConsistency, dateTime_valid, texts_valid, hSource, strings_valid, path_valid]

theorem artifact_valid {snapshot : Snapshot} (accepted : snapshot.Accepted p limits)
    (hSource : snapshot.times.source ∈ ["system-clock", "caller-supplied-reproducibility-override"]) {metadata : Value}
    {json : Json} (h : artifactJson snapshot metadata = .ok json) :
    artifact.valid json = true ↔
      snapshot.excludedPaths.length ≤ 20 ∧ ∀ path ∈ snapshot.excludedPaths, Placed path := by
  have hCeiling := limits.ceilings
  have hCount := accepted.fileCount
  have hTotal := accepted.totalBytes
  have hRoot : (text 1 255).valid (.str snapshot.rootName) = true := by
    rw [text_valid, Nat.one_le_iff_ne_zero, Ne, List.length_eq_zero_iff, String.toList_eq_nil_iff]
    exact accepted.rootName
  have hDigest : (ReceiptSchema.total [("algorithm", const (.str "capabilityproof-directory-sha256-v1")),
      ("sha256", sha256)]).valid (.obj [("algorithm", .str directoryDigestAlgorithm),
        ("sha256", .str snapshot.directorySha256)]) = true := by
    rw [total_valid rfl (by decide)]
    simp only [List.zip_cons_cons, List.zip_nil_left, List.forall_mem_cons, List.not_mem_nil, false_implies,
      implies_true, and_true, const_str_valid, accepted.directory, sha256_valid]
    rfl
  have hFiles : (list 1000 fileEntry).valid (.arr (snapshot.files.map FileData.json)) = true := by
    rw [list_valid, List.length_map, List.forall_mem_map]
    exact ⟨by omega, fun file hFile => fileEntry_valid (accepted.files file hFile)⟩
  have hNumbers : (integer 0 1000).valid (.int snapshot.files.length) = true ∧
      (integer 0 25000000).valid (.int snapshot.totalBytes) = true := by
    rw [integer_int_valid, integer_int_valid]
    omega
  simp only [artifactJson, Except.bind_eq_ok_iff, Except.pure_eq_ok_iff] at h
  obtain ⟨claims, hClaims, rfl⟩ := h
  rw [artifact, total_valid rfl (by decide)]
  simp only [List.zip_cons_cons, List.zip_nil_left, List.forall_mem_cons, List.not_mem_nil, false_implies, implies_true,
    and_true, true_and, const_str_valid, hRoot, claimsUntrusted_valid hClaims, hDigest, hNumbers.1, hNumbers.2, hFiles,
    scope_valid hSource]

theorem commit_valid {text : String} : commit.valid (.str text) = true ↔ IsCommit text := by
  have hMatching : ∀ count, (matching (Regex.anchored (hexDigits count))).valid (.str text) = true ↔
      ∃ found : List Char, found.length = count ∧ (∀ c ∈ found, Bytes.isHexDigit c = true) ∧
        (text.toList = found ∨ text.toList = found ++ [Char.ofNat 10]) := by
    intro count
    rw [matching_valid]
    simp only [Json.str.injEq, exists_eq_left', Regex.mem_anchored, hexDigits, Regex.mem_times_one]
    constructor
    · rintro ⟨found, ⟨hLeast, hMost, hDigits⟩, hText⟩
      exact ⟨found, Nat.le_antisymm hMost hLeast, hDigits, hText⟩
    · rintro ⟨found, hLength, hDigits, hText⟩
      exact ⟨found, ⟨hLength.ge, hLength.le, hDigits⟩, hText⟩
  rw [commit, anyOf_two_valid, hMatching, hMatching, IsCommit, ← exists_or]
  exact exists_congr fun found => or_and_right.symm

theorem not_isCommit_notChecked : ¬IsCommit "not-checked" := by
  rintro ⟨found, hLength, -, hText⟩
  have hShort : "not-checked".toList.length = 11 := by decide
  rcases hText with hText | hText
  · rw [hText] at hShort
    omega
  · rw [hText, List.length_append] at hShort
    omega

theorem sourceCommit_valid {text : String} :
    (oneOf [const (.str "not-checked"), commit]).valid (.str text) = true ↔ text = "not-checked" ∨ IsCommit text := by
  rw [oneOf_two_valid, const_str_valid, commit_valid, Json.str.injEq]
  constructor
  · intro h
    by_cases hCommit : IsCommit text
    · exact Or.inr hCommit
    · exact Or.inl (h.mpr hCommit)
  · rintro (rfl | hCommit)
    · exact iff_of_true rfl not_isCommit_notChecked
    · refine iff_of_false ?_ (not_not_intro hCommit)
      rintro rfl
      exact not_isCommit_notChecked hCommit

theorem artifactPath_valid {text : String} :
    (anyOf [const (.str "not-checked"), ReceiptSchema.path]).valid (.str text) = true ↔ Placed text := by
  rw [anyOf_two_valid, const_str_valid, path_valid, Json.str.injEq]
  refine or_iff_right_of_imp ?_
  rintro rfl
  exact ⟨by decide, by decide⟩

theorem completed_valid {method : String} :
    (oneOf [notPerformed, completedBy]).valid (.obj [("status", .str "completed"), ("method", .str method)]) = true ↔
      method = "exact-local-git-blob-match-v1" := by
  have hFirst : ¬notPerformed.valid (.obj [("status", .str "completed"), ("method", .str method)]) = true := by
    rw [notPerformed, ReceiptSchema.total, record_valid]
    simp [Json.hasExactly]
  rw [oneOf_two_valid, iff_false_left hFirst, not_not, completedBy, total_valid rfl (by decide)]
  simp only [List.zip_cons_cons, List.zip_nil_left, List.forall_mem_cons, List.not_mem_nil, false_implies, implies_true,
    and_true, true_and, const_str_valid, Json.str.injEq]

theorem notPerformed_valid : (oneOf [notPerformed, completedBy]).valid (.obj [("status", .str "not-performed")]) = true := by
  have hSecond : ¬completedBy.valid (.obj [("status", .str "not-performed")]) = true := by
    rw [completedBy, ReceiptSchema.total, record_valid]
    simp [Json.hasExactly]
  rw [oneOf_two_valid, iff_true_right hSecond, notPerformed, total_valid rfl (by decide)]
  simp only [List.zip_cons_cons, List.zip_nil_left, List.forall_mem_cons, List.not_mem_nil, false_implies, implies_true,
    and_true, const_str_valid]

theorem provenance_valid {provenance : Option ProvenanceEvidence} :
    ReceiptSchema.provenance.valid (provenanceJson provenance) = true ↔
      ∀ evidence, provenance = some evidence → evidence.Conforms := by
  have hPinned : (const (.bool true)).valid (.bool true) = true := by
    simp [valid, same]
  cases provenance with
  | none =>
      have hShort : (text 1 2048).valid (.str "not-checked") = true := text_literal rfl (by decide)
      rw [provenanceJson, ReceiptSchema.provenance, total_valid rfl (by decide)]
      simp only [List.zip_cons_cons, List.zip_nil_left, List.forall_mem_cons, List.not_mem_nil, false_implies,
        implies_true, and_true, true_and, hPinned, hShort, sourceCommit_valid, true_or, artifactPath_valid,
        const_str_valid, reduceCtorEq, iff_true]
      exact ⟨⟨by decide, by decide⟩, notPerformed_valid⟩
  | some evidence =>
      rw [provenanceJson, ReceiptSchema.provenance, total_valid rfl (by decide)]
      simp only [List.zip_cons_cons, List.zip_nil_left, List.forall_mem_cons, List.not_mem_nil, false_implies,
        implies_true, and_true, true_and, hPinned, text_valid, sourceCommit_valid, artifactPath_valid, const_str_valid,
        Option.some.injEq, forall_eq']
      constructor
      · rintro ⟨hRepository, hCommit, hPath, hMethod⟩
        exact ⟨hRepository, hCommit, hPath, completed_valid.mp hMethod⟩
      · intro conforms
        exact ⟨conforms.repository, conforms.commit, conforms.path, completed_valid.mpr conforms.method⟩

end

section
variable {p : Platform} {lib : Libraries} {limits : ScanLimits}

theorem structuralFinding_valid {finding : Finding} (formed : finding.Formed) {json : Json}
    (h : finding.json = .ok json) : structuralFinding.valid json = true := by
  simp only [Finding.json, Except.bind_eq_ok_iff, Except.pure_eq_ok_iff] at h
  obtain ⟨message, hMessage, rfl⟩ := h
  obtain ⟨shown, rfl, hLength⟩ := encoded_eq_ok hMessage
  have hText : (text 1 500).valid (.str shown) = true := by
    rw [text_valid, hLength]
    exact ⟨List.length_pos_iff.mpr formed.nonempty, formed.short⟩
  have hSeverity : finding.severity.name ∈ ["error", "warning"] := by
    cases finding.severity <;> decide
  cases hNumber : finding.line with
  | none =>
      simp only [List.append_nil]
      rw [structuralFinding, record_obj_valid (by simp) (by decide) (by simp)]
      simp only [List.zip_cons_cons, List.zip_nil_left, List.forall_mem_cons, List.not_mem_nil, false_implies,
        implies_true, and_true, matching_of_isRule formed.rule, texts_valid, hSeverity, hText]
  | some number =>
      simp only [List.cons_append, List.nil_append]
      rw [structuralFinding, record_obj_valid (by simp) (by decide) (by simp)]
      simp only [List.zip_cons_cons, List.zip_nil_left, List.forall_mem_cons, List.not_mem_nil, false_implies,
        implies_true, and_true, matching_of_isRule formed.rule, texts_valid, hSeverity, hText, line_valid (formed.line number hNumber)]

theorem localReference_valid {reference : LocalReference} (hLine : IsLine reference.line) :
    localReference.valid reference.json = true ↔ Placed (String.ofList reference.path) := by
  have hKind : reference.kind.name ∈ ["markdown-link", "example-link", "resource-candidate"] := by
    cases reference.kind <;> decide
  have hStatus : reference.status.name ∈
      ["present", "missing", "outside-root", "unresolved-example", "unresolved-candidate"] := by
    cases reference.status <;> decide
  rw [localReference, LocalReference.json, total_valid rfl (by decide)]
  simp only [List.zip_cons_cons, List.zip_nil_left, List.forall_mem_cons, List.not_mem_nil, false_implies, implies_true,
    and_true, path_valid, line_valid hLine, texts_valid, hKind, hStatus]

/-- Results are valid when what they are made of is right. -/
theorem mapM_valid {Item : Type} {change : Item → Except Raised Json} {items : List Item} {results : List Json}
    (h : items.mapM change = .ok results) {item : Schema} {right : Item → Prop}
    (hValid : ∀ found ∈ items, ∀ json, change found = .ok json → (item.valid json = true ↔ right found)) :
    results.length = items.length ∧ ((∀ json ∈ results, item.valid json = true) ↔ ∀ found ∈ items, right found) := by
  have hAll := Except.forall₂_of_mapM h
  refine ⟨hAll.length_eq.symm, ?_⟩
  clear h
  induction hAll with
  | nil => simp
  | @cons found json _ _ hChange _ ih =>
      rw [List.forall_mem_cons, List.forall_mem_cons, hValid found List.mem_cons_self json hChange,
        ih fun other hOther => hValid other (List.mem_cons_of_mem _ hOther)]

theorem formatValidation_valid {parsed : ParsedSkill} (bounded : parsed.Bounded limits) {json : Json}
    (h : formatValidationJson parsed = .ok json) :
    formatValidation.valid json = true ↔
      ∀ reference ∈ parsed.localReferences, Placed (String.ofList reference.path) := by
  have hCeiling := limits.ceilings
  have hFindingCount := bounded.findingCount
  have hLocalCount := bounded.localCount
  have hExternalCount := bounded.externalCount
  simp only [formatValidationJson, Except.bind_eq_ok_iff, Except.pure_eq_ok_iff] at h
  obtain ⟨findings, hFindings, rfl⟩ := h
  obtain ⟨hLength, hEach⟩ := @mapM_valid _ _ _ _ hFindings structuralFinding (fun _ => True) fun finding hFinding json hJson =>
    iff_true_intro (structuralFinding_valid (bounded.findings finding hFinding) hJson)
  have hFindingList : (list 500 structuralFinding).valid (.arr findings) = true :=
    list_valid.mpr ⟨by omega, hEach.mpr fun _ _ => trivial⟩
  have hExternal : (list 1000 (text 0 500)).valid (strings (parsed.externalReferences.map String.ofList)) = true := by
    rw [strings_valid, List.length_map, List.forall_mem_map]
    refine ⟨by omega, fun target hTarget => ?_⟩
    rw [text_valid, String.toList_ofList]
    exact ⟨Nat.zero_le _, bounded.external target hTarget⟩
  have hStatus : (if parsed.structureValid = true then "pass" else "fail") ∈ ["pass", "fail"] := by
    split <;> decide
  have hLocal : (list 1000 localReference).valid (.arr (parsed.localReferences.map LocalReference.json)) = true ↔
      ∀ reference ∈ parsed.localReferences, Placed (String.ofList reference.path) := by
    rw [list_valid, List.length_map, List.forall_mem_map, and_iff_right (by omega)]
    exact forall₂_congr fun reference hReference => localReference_valid (bounded.lines reference hReference)
  rw [formatValidation, total_valid rfl (by decide)]
  simp only [List.zip_cons_cons, List.zip_nil_left, List.forall_mem_cons, List.not_mem_nil, false_implies, implies_true,
    and_true, true_and, const_str_valid, agentSkillsSpecUrl, texts_valid, hStatus, hFindingList, hExternal, hLocal]

theorem licenseEvidence_valid {snapshot : Snapshot} (accepted : snapshot.Accepted p limits) {parsed : ParsedSkill}
    {json : Json} (h : Inspection.licenseEvidence lib parsed (snapshot.files.map FileData.path) = .ok json) :
    ReceiptSchema.licenseEvidence.valid json = true ↔
      ((snapshot.files.map FileData.path).filter (isLicenseFile lib)).length ≤ 100 := by
  have hPaths : ∀ path ∈ (snapshot.files.map FileData.path).filter (isLicenseFile lib), Placed path := by
    intro path hPath
    obtain ⟨file, hFile, rfl⟩ := List.mem_map.mp (List.mem_of_mem_filter hPath)
    exact (accepted.files file hFile).path.placed
  simp only [Inspection.licenseEvidence, Except.bind_eq_ok_iff, Except.pure_eq_ok_iff] at h
  obtain ⟨declared, hDeclared, rfl⟩ := h
  rw [ReceiptSchema.licenseEvidence, total_valid rfl (by decide)]
  simp only [List.zip_cons_cons, List.zip_nil_left, List.forall_mem_cons, List.not_mem_nil, false_implies, implies_true,
    and_true, true_and, claim_valid hDeclared, strings_valid, path_valid, const_str_valid]
  exact and_iff_left hPaths

theorem summary_valid {static : StaticAnalysis} (bounded : static.Bounded limits) :
    staticSummary.valid static.summary = true := by
  have hCeiling := limits.ceilings
  have hCount := bounded.findingCount
  have hSeverity : ∀ severity, (integer 0 500).valid (.int (static.count severity)) = true := by
    intro severity
    have hSome : static.count severity ≤ static.findings.length := List.countP_le_length
    rw [integer_int_valid]
    omega
  have hTotal : (integer 0 500).valid (.int static.findings.length) = true := by
    rw [integer_int_valid]
    omega
  rw [staticSummary, StaticAnalysis.summary, total_valid rfl (by decide)]
  simp only [List.zip_cons_cons, List.zip_nil_left, List.forall_mem_cons, List.not_mem_nil, false_implies, implies_true,
    and_true, hSeverity, hTotal]

/-- What the rules say of themselves fits the schema. -/
theorem rules_formed : ∀ rule ∈ rules, isRule "CP" rule.ruleId = true ∧
    (text 1 100).valid (.str rule.category) = true ∧ (text 1 500).valid (.str rule.message) = true := by
  simp only [rules, List.forall_mem_cons, List.not_mem_nil, false_implies, implies_true, and_true]
  refine ⟨?_, ?_, ?_, ?_, ?_, ?_, ?_, ?_, ?_, ?_, ?_, ?_⟩ <;>
    exact ⟨by decide, text_literal rfl (by decide), text_literal rfl (by decide)⟩

theorem staticFinding_valid {finding : StaticFinding} (formed : finding.Formed) :
    staticFinding.valid finding.json = true := by
  obtain ⟨hRule, hCategory, hMessage⟩ := rules_formed finding.rule formed.rule
  have hSeverity : finding.rule.severity.name ∈ ["critical", "high", "medium", "low", "info"] := by
    cases finding.rule.severity <;> decide
  rw [staticFinding, StaticFinding.json, total_valid rfl (by decide)]
  simp only [List.zip_cons_cons, List.zip_nil_left, List.forall_mem_cons, List.not_mem_nil, false_implies, implies_true,
    and_true, true_and, matching_of_isRule hRule, hCategory, texts_valid, hSeverity, hMessage, path_valid,
    line_valid formed.line, const_str_valid, text_valid, String.toList_ofList]
  exact ⟨formed.path, Nat.zero_le _, formed.excerpt⟩

theorem skippedFile_valid {file : SkippedFile} (hPath : Placed file.path) : skippedFile.valid file.json = true := by
  rw [skippedFile, SkippedFile.json, total_valid rfl (by decide)]
  simp only [List.zip_cons_cons, List.zip_nil_left, List.forall_mem_cons, List.not_mem_nil, false_implies, implies_true,
    and_true, path_valid, texts_valid]
  refine ⟨hPath, ?_⟩
  split <;> decide

theorem coverage_valid {static : StaticAnalysis} (bounded : static.Bounded limits) :
    ReceiptSchema.coverage.valid (static.coverage limits) = true := by
  have hCeiling := limits.ceilings
  have hPositive := limits.positive
  have hFiles := bounded.files
  have hCount : (integer 0 1000).valid (.int static.filesInSnapshot) = true := by
    rw [integer_int_valid]
    omega
  have hUrls : (atLeast 0).valid (.int static.malformedUrlCount) = true := by
    rw [atLeast_valid]
    omega
  rw [ReceiptSchema.coverage, StaticAnalysis.coverage, total_valid rfl (by decide)]
  simp only [List.zip_cons_cons, List.zip_nil_left, List.forall_mem_cons, List.not_mem_nil, false_implies, implies_true,
    and_true, true_and, hCount, boolean_valid, hUrls, atLeast_valid]
  omega

theorem evidence_valid {evidence : Evidence} (formed : evidence.Formed) :
    requirementEvidence.valid evidence.json = true := by
  rw [requirementEvidence, Evidence.json, total_valid rfl (by decide)]
  simp only [List.zip_cons_cons, List.zip_nil_left, List.forall_mem_cons, List.not_mem_nil, false_implies, implies_true,
    and_true, path_valid, line_valid formed.line, text_valid, String.toList_ofList]
  exact ⟨formed.path, trivial, Nat.zero_le _, formed.excerpt⟩

theorem signal_valid {static : StaticAnalysis} (bounded : static.Bounded limits) (kind : Requirement) :
    requirementSignal.valid (signal static limits kind) = true := by
  have hCeiling := limits.ceilings
  have hPositive := limits.positive
  have hCount := bounded.evidenceCount kind
  have hStatus : (if static.requirementEvidence kind = [] then "not-detected" else "indicated") ∈
      ["indicated", "not-detected"] := by
    split <;> decide
  have hEvidence : (list 20 requirementEvidence).valid
      (.arr ((static.requirementEvidence kind).map Evidence.json)) = true := by
    rw [list_valid, List.length_map, List.forall_mem_map]
    exact ⟨by omega, fun evidence hEvidence => evidence_valid (bounded.evidence kind evidence hEvidence)⟩
  rw [requirementSignal, signal, total_valid rfl (by decide)]
  simp only [List.zip_cons_cons, List.zip_nil_left, List.forall_mem_cons, List.not_mem_nil, false_implies, implies_true,
    and_true, true_and, texts_valid, hStatus, hEvidence, boolean_valid, atLeast_valid, const_str_valid]
  omega

theorem requirements_valid {static : StaticAnalysis} (bounded : static.Bounded limits) :
    inferredRequirements.valid (static.requirementsJson limits) = true := by
  rw [inferredRequirements, StaticAnalysis.requirementsJson, total_valid rfl (by decide)]
  simp only [List.zip_cons_cons, List.zip_nil_left, List.forall_mem_cons, List.not_mem_nil, false_implies, implies_true,
    and_true, signal_valid bounded]

theorem dependency_valid {found : Dependency} (formed : found.Formed) {json : Json} (h : found.json = .ok json) :
    dependency.valid json = true ↔ found.declaration ≠ [] := by
  simp only [Dependency.json, Except.bind_eq_ok_iff, Except.pure_eq_ok_iff] at h
  obtain ⟨declaration, hDeclaration, rfl⟩ := h
  obtain ⟨shown, rfl, hLength⟩ := encoded_eq_ok hDeclaration
  rw [dependency, total_valid rfl (by decide)]
  simp only [List.zip_cons_cons, List.zip_nil_left, List.forall_mem_cons, List.not_mem_nil, false_implies, implies_true,
    and_true, true_and, texts_valid, formed.ecosystem, text_valid, hLength, formed.short, path_valid, formed.path]
  exact List.length_pos_iff

theorem manifestFailure_valid {failure : ManifestFailure} (formed : failure.Formed) :
    manifestParseFailure.valid failure.json = true := by
  rw [manifestParseFailure, ManifestFailure.json, total_valid rfl (by decide)]
  simp only [List.zip_cons_cons, List.zip_nil_left, List.forall_mem_cons, List.not_mem_nil, false_implies, implies_true,
    and_true, path_valid, texts_valid, text_valid]
  exact ⟨formed.path, formed.manifest, formed.reason⟩

theorem staticAnalysis_valid {static : StaticAnalysis} (bounded : static.Bounded limits) {json : Json}
    (h : static.json limits = .ok json) :
    staticAnalysis.valid json = true ↔
      (∀ dependency ∈ static.dependencies, dependency.declaration ≠ []) ∧
        (∀ language ∈ static.scriptLanguages, language.toList.length ≤ 100) ∧
          ∀ host ∈ static.referencedHosts, 1 ≤ host.toList.length ∧ host.toList.length ≤ 253 := by
  have hCeiling := limits.ceilings
  have hFindingCount := bounded.findingCount
  have hSkippedCount := bounded.skippedCount
  have hDependencyCount := bounded.dependencyCount
  have hFailureCount := bounded.failureCount
  have hLanguageCount := bounded.languageCount
  have hHostCount := bounded.hosts
  simp only [StaticAnalysis.json, Except.bind_eq_ok_iff, Except.pure_eq_ok_iff] at h
  obtain ⟨dependencies, hDependencies, rfl⟩ := h
  obtain ⟨hLength, hEach⟩ := mapM_valid hDependencies fun found hFound json hJson =>
    dependency_valid (bounded.dependencies found hFound) hJson
  have hDeclared : (list 1000 dependency).valid (.arr dependencies) = true ↔
      ∀ dependency ∈ static.dependencies, dependency.declaration ≠ [] := by
    rw [list_valid, and_iff_right (by omega)]
    exact hEach
  have hFindings : (list 500 staticFinding).valid (.arr (static.findings.map StaticFinding.json)) = true := by
    rw [list_valid, List.length_map, List.forall_mem_map]
    exact ⟨by omega, fun finding hFinding => staticFinding_valid (bounded.findings finding hFinding)⟩
  have hSkipped : (list 1000 skippedFile).valid (.arr (static.skippedTextFiles.map SkippedFile.json)) = true := by
    rw [list_valid, List.length_map, List.forall_mem_map]
    exact ⟨by omega, fun file hFile => skippedFile_valid (bounded.skipped file hFile)⟩
  have hFailures : (list 1000 manifestParseFailure).valid
      (.arr (static.manifestParseFailures.map ManifestFailure.json)) = true := by
    rw [list_valid, List.length_map, List.forall_mem_map]
    exact ⟨by omega, fun failure hFailure => manifestFailure_valid (bounded.failures failure hFailure)⟩
  have hLanguages : (list 1000 (text 1 100)).valid (strings static.scriptLanguages) = true ↔
      ∀ language ∈ static.scriptLanguages, language.toList.length ≤ 100 := by
    rw [strings_valid, and_iff_right (by omega)]
    refine forall₂_congr fun language hLanguage => ?_
    have hSome : 1 ≤ language.toList.length := by
      rw [Nat.one_le_iff_ne_zero, Ne, List.length_eq_zero_iff, String.toList_eq_nil_iff]
      exact bounded.languages language hLanguage
    rw [text_valid, and_iff_right hSome]
  have hHosts : (list 500 (text 1 253)).valid (strings static.referencedHosts) = true ↔
      ∀ host ∈ static.referencedHosts, 1 ≤ host.toList.length ∧ host.toList.length ≤ 253 := by
    rw [strings_valid, and_iff_right (by omega)]
    exact forall₂_congr fun host _ => text_valid
  rw [staticAnalysis, total_valid rfl (by decide)]
  simp only [List.zip_cons_cons, List.zip_nil_left, List.forall_mem_cons, List.not_mem_nil, false_implies, implies_true,
    and_true, true_and, const_str_valid, staticEngine, summary_valid bounded, hFindings, hSkipped,
    coverage_valid bounded, requirements_valid bounded, hDeclared, hFailures, hLanguages, hHosts]

theorem labels_valid (parsed : ParsedSkill) (independentStaticScan : Bool) :
    ReceiptSchema.evidenceLabels.valid (strings (Inspection.evidenceLabels parsed independentStaticScan)) = true := by
  rw [ReceiptSchema.evidenceLabels, Inspection.evidenceLabels, allOf_valid]
  simp only [List.forall_mem_cons, List.not_mem_nil, false_implies, implies_true, and_true]
  cases parsed.structureValid <;> cases independentStaticScan <;>
    simp [strings, valid, Json.typeName, Json.sorted, texts, same]

theorem level_valid {number : Nat} {name status : String} {evidence : List (String × Json)} (hNumber : number ≤ 6)
    (hName : (text 1 100).valid (.str name) = true)
    (hStatus : status ∈ ["completed", "completed-pass", "completed-fail", "partial", "not-run"])
    (hEvidence : evidence = [] ∨ ∃ shown, evidence = [("evidence", .str shown)] ∧ (text 1 300).valid (.str shown) = true) :
    evidenceLevel.valid (level number name status evidence) = true := by
  have hLevel : (integer 0 6).valid (.int number) = true := by
    rw [integer_int_valid]
    omega
  rw [evidenceLevel, level]
  rcases hEvidence with rfl | ⟨shown, rfl, hShown⟩
  · rw [List.append_nil, record_obj_valid (by simp) (by decide) (by simp)]
    simp only [List.zip_cons_cons, List.zip_nil_left, List.forall_mem_cons, List.not_mem_nil, false_implies,
      implies_true, and_true, hLevel, hName, texts_valid, hStatus]
  · simp only [List.cons_append, List.nil_append]
    rw [record_obj_valid (by simp) (by decide) (by simp)]
    simp only [List.zip_cons_cons, List.zip_nil_left, List.forall_mem_cons, List.not_mem_nil, false_implies,
      implies_true, and_true, hLevel, hName, texts_valid, hStatus, hShown]

theorem shown_valid {count : Nat} (hCount : count < 10 ^ 10) :
    (text 1 300).valid (.str (shown count ++ " risk-rule findings recorded")) = true := by
  have hDigits : (Nat.toDigits 10 count).length ≤ 10 := (Nat.length_toDigits_le_iff (by decide) (by decide)).mpr hCount
  have hRest : " risk-rule findings recorded".toList.length = 28 := by decide
  rw [text_valid, String.toList_append, List.length_append, shown, String.toList_ofList]
  omega

theorem levels_valid (parsed : ParsedSkill) {static : StaticAnalysis} (bounded : static.Bounded limits)
    (provenanceVerified : Bool) : evidenceLevels.valid (levels parsed static provenanceVerified) = true := by
  have hCeiling := limits.ceilings
  have hCount := bounded.findingCount
  have hShown := shown_valid (show static.findings.length < 10 ^ 10 by omega)
  have hNames : ∀ name ∈ ["indexed", "structurally-valid", "provenance-checked", "static-risk-reviewed",
      "sandbox-observed", "capability-evaluated", "continuously-monitored"], (text 1 100).valid (.str name) = true := by
    simp only [List.forall_mem_cons, List.not_mem_nil, false_implies, implies_true, and_true, text_valid]
    decide
  simp only [List.forall_mem_cons, List.not_mem_nil, false_implies, implies_true, and_true] at hNames
  obtain ⟨hIndexed, hStructure, hProvenance, hStatic, hSandbox, hCapability, hMonitored⟩ := hNames
  have hInventoried : (text 1 300).valid (.str "artifact bytes inventoried") = true := text_literal rfl (by decide)
  have hChecked : (text 1 300).valid (.str "Agent Skills constraints checked") = true := text_literal rfl (by decide)
  have hSource : (text 1 300).valid (.str (if provenanceVerified = true then
        "clean Git commit and exact tracked file set verified; publisher identity not checked"
      else "content digest pinned; source commit and publisher identity not checked")) = true := by
    split
    · exact text_literal rfl (by decide)
    · exact text_literal rfl (by decide)
  have hPassed : (if parsed.structureValid = true then "completed-pass" else "completed-fail") ∈
      ["completed", "completed-pass", "completed-fail", "partial", "not-run"] := by
    split <;> decide
  have hVerified : (if provenanceVerified = true then "completed-pass" else "partial") ∈
      ["completed", "completed-pass", "completed-fail", "partial", "not-run"] := by
    split <;> decide
  have hHighest : (integer 0 3).valid (.int (if parsed.structureValid = true then
      if provenanceVerified = true then 3 else 1 else 0)) = true := by
    rw [integer_int_valid]
    split
    · split <;> decide
    · decide
  have hCompleted : (listBetween 3 4 (integer 0 3)).valid
      (.arr (if provenanceVerified = true then [.int 0, .int 1, .int 2, .int 3] else [.int 0, .int 1, .int 3])) =
        true := by
    rw [listBetween_valid]
    cases provenanceVerified <;> simp [integer_int_valid]
  rw [evidenceLevels, levels, total_valid rfl (by decide)]
  simp only [List.zip_cons_cons, List.zip_nil_left, List.forall_mem_cons, List.not_mem_nil, false_implies, implies_true,
    and_true]
  refine ⟨hHighest, hCompleted, ?_⟩
  rw [listBetween_valid]
  refine ⟨by simp, ?_⟩
  simp only [List.forall_mem_cons, List.not_mem_nil, false_implies, implies_true, and_true]
  exact ⟨level_valid (by decide) hIndexed (by decide) (Or.inr ⟨_, rfl, hInventoried⟩),
    level_valid (by decide) hStructure hPassed (Or.inr ⟨_, rfl, hChecked⟩),
    level_valid (by decide) hProvenance hVerified (Or.inr ⟨_, rfl, hSource⟩),
    level_valid (by decide) hStatic (by decide) (Or.inr ⟨_, rfl, hShown⟩),
    level_valid (by decide) hSandbox (by decide) (Or.inl rfl),
    level_valid (by decide) hCapability (by decide) (Or.inl rfl),
    level_valid (by decide) hMonitored (by decide) (Or.inl rfl)⟩

theorem decision_valid (found : Decision) :
    ReceiptSchema.decision.valid (.obj [("status", .str found.status), ("meaning", .str found.meaning)]) = true := by
  have hStatus : found.status ∈ ["reject-structural", "review-required", "eligible-for-policy-evaluation"] := by
    cases found <;> decide
  have hMeaning : (text 1 300).valid (.str found.meaning) = true := by
    cases found <;> exact text_literal rfl (by decide)
  rw [ReceiptSchema.decision, total_valid rfl (by decide)]
  simp only [List.zip_cons_cons, List.zip_nil_left, List.forall_mem_cons, List.not_mem_nil, false_implies, implies_true,
    and_true, texts_valid, hStatus, hMeaning]

theorem limits_valid : scanLimits.valid (limitsJson limits) = true := by
  have hPositive := limits.positive
  rw [scanLimits, limitsJson, total_valid rfl (by decide)]
  simp only [List.zip_cons_cons, List.zip_nil_left, List.forall_mem_cons, List.not_mem_nil, false_implies, implies_true,
    and_true, atLeast_valid]
  omega

theorem policy_valid : policy.valid (policyJson p limits) = true := by
  rw [policy, policyJson, withProfileSha256]
  simp only [List.cons_append, List.nil_append]
  rw [total_valid rfl (by decide)]
  simp only [List.zip_cons_cons, List.zip_nil_left, List.forall_mem_cons, List.not_mem_nil, false_implies, implies_true,
    and_true, const_str_valid, limits_valid, sha256Json, sha256_valid]

theorem runtime_valid {runtime : Runtime} :
    ReceiptSchema.runtime.valid (.obj [("implementation", .str runtime.implementation), ("python", .str runtime.python),
      ("pyyaml", .str runtime.pyyaml), ("mcp", .str runtime.mcp)]) = true ↔ runtime.Named := by
  rw [Runtime.Named, ReceiptSchema.runtime, total_valid rfl (by decide)]
  simp only [List.zip_cons_cons, List.zip_nil_left, List.forall_mem_cons, List.not_mem_nil, false_implies, implies_true,
    and_true, text_valid]

theorem methodology_valid {runtime : Runtime} :
    methodology.valid (methodologyJson p runtime) = true ↔ runtime.Named := by
  have hDigits : referenceDependencyLockSha256.toList.all Bytes.isHexDigit = true := by decide +kernel
  have hLock : sha256.valid (.str referenceDependencyLockSha256) = true :=
    hexDigits_valid (by decide) (List.all_eq_true.mp hDigits)
  rw [methodology, methodologyJson, withProfileSha256]
  simp only [List.cons_append, List.nil_append]
  rw [total_valid rfl (by decide)]
  simp only [List.zip_cons_cons, List.zip_nil_left, List.forall_mem_cons, List.not_mem_nil, false_implies, implies_true,
    and_true, true_and, const_str_valid, methodologyVersion, staticEngine, staticRulesetSha256, hLock, runtime_valid,
    sha256Json, sha256_valid]

theorem authentication_valid : authentication.valid authenticationJson = true := by
  have hRequirement : (text 1 300).valid
      (.str "verified DSSE v1.0.2 envelope containing these exact receipt bytes") = true := text_literal rfl (by decide)
  rw [authentication, authenticationJson, total_valid rfl (by decide)]
  simp only [List.zip_cons_cons, List.zip_nil_left, List.forall_mem_cons, List.not_mem_nil, false_implies, implies_true,
    and_true, hRequirement, true_and]
  rw [total_valid rfl (by decide)]
  simp only [List.zip_cons_cons, List.zip_nil_left, List.forall_mem_cons, List.not_mem_nil, false_implies, implies_true,
    and_true, const_str_valid, Signing.receiptPayloadType]

theorem validity_valid (generatedAt expiresAt : String) :
    validity.valid (.obj [("generated_at", .str generatedAt), ("expires_at", .str expiresAt),
      ("invalidation", .str "any artifact byte/path change requires a new receipt")]) = true := by
  have hInvalidation : (text 1 200).valid (.str "any artifact byte/path change requires a new receipt") = true :=
    text_literal rfl (by decide)
  rw [validity, total_valid rfl (by decide)]
  simp only [List.zip_cons_cons, List.zip_nil_left, List.forall_mem_cons, List.not_mem_nil, false_implies, implies_true,
    and_true, dateTime_valid, hInvalidation]

theorem limitations_valid : ReceiptSchema.limitations.valid (strings Inspection.limitations) = true := by
  rw [ReceiptSchema.limitations, strings, listBetween_valid, List.forall_mem_map]
  refine ⟨by decide, ?_⟩
  simp only [Inspection.limitations, List.forall_mem_cons, List.not_mem_nil, false_implies, implies_true, and_true]
  exact ⟨text_literal rfl (by decide), text_literal rfl (by decide), text_literal rfl (by decide),
    text_literal rfl (by decide), text_append_literal rfl rfl (by decide), text_append_literal rfl rfl (by decide),
    text_append_literal rfl rfl (by decide), text_literal rfl (by decide)⟩

theorem receiptId_valid (digest : Digest) :
    (matching receiptIdPattern).valid (.str ("cpr_" ++ String.ofList (digest.hexdigest.toList.take 24))) = true := by
  have hLength : (digest.hexdigest.toList.take 24).length = 24 := by
    rw [List.length_take, digest.hexdigest_length]
    rfl
  have hDigits : digest.hexdigest.toList.take 24 ∈ (hexDigits 24).language :=
    Regex.mem_times_one.mpr
      ⟨hLength.ge, hLength.le, fun c hC => hexdigest_digits digest c (List.mem_of_mem_take hC)⟩
  refine matching_valid.mpr ⟨_, rfl, ?_⟩
  rw [String.toList_append, @String.toList_ofList (digest.hexdigest.toList.take 24)]
  exact Regex.anchored_of_mem (Regex.mem_seq_literal hDigits)

/-- The profile of the serialisation, between its fixed ends. -/
theorem jsonProfile_parts : ∃ middle : List Char, Signing.deterministicJsonProfile.toList =
    "capabilityproof-sorted-json-v1:".toList ++ (middle ++ "not RFC 8785 JCS".toList) ∧ middle.length ≤ 200 ∧
      ∀ c ∈ middle, c ≠ Char.ofNat 10 := by
  have hBreaks : ((Signing.deterministicJsonProfile.toList.drop 31).take 103).all (fun c => c != Char.ofNat 10) = true := by
    decide +kernel
  refine ⟨(Signing.deterministicJsonProfile.toList.drop 31).take 103, by decide +kernel, by decide +kernel, fun c hC => ?_⟩
  exact bne_iff_ne.mp (List.all_eq_true.mp hBreaks c hC)

theorem jsonProfile_valid :
    (allOf [type [.string], pattern jsonProfilePattern, maxLength 300]).valid
      (.str Signing.deterministicJsonProfile) = true := by
  obtain ⟨middle, hParts, hLength, hMiddle⟩ := jsonProfile_parts
  have hPattern : jsonProfilePattern.fullmatch Signing.deterministicJsonProfile.toList = true := by
    have hInside : middle ∈ (Regex.times 0 300 (.one fun c => c ≠ Char.ofNat 10)).language :=
      Regex.mem_times_one.mpr ⟨Nat.zero_le _, by omega, fun c hC => decide_eq_true (hMiddle c hC)⟩
    have hRest := Language.append_mem_mul hInside (@Regex.mem_literal "not RFC 8785 JCS" _ |>.mpr rfl)
    rw [Regex.fullmatch_iff, hParts]
    exact Regex.anchored_of_mem (Regex.mem_seq_literal hRest)
  have hShort : Signing.deterministicJsonProfile.toList.length ≤ 300 := by
    have hStart : "capabilityproof-sorted-json-v1:".toList.length = 31 := by decide
    have hEnd : "not RFC 8785 JCS".toList.length = 16 := by decide
    rw [hParts, List.length_append, List.length_append]
    omega
  rw [allOf_valid]
  simp only [List.forall_mem_cons, List.not_mem_nil, false_implies, implies_true, and_true]
  refine ⟨dateTime_valid _, ?_, ?_⟩
  · rw [valid]
    exact hPattern
  · rw [valid]
    exact decide_eq_true hShort

theorem integrity_valid (digest : Digest) : integrity.valid (integrityJson digest.hexdigest) = true := by
  have hWarning : (text 1 300).valid
      (.str "The inner digest alone is unauthenticated; verify the DSSE envelope before using this receipt.") = true :=
    text_literal rfl (by decide)
  rw [integrity, integrityJson, total_valid rfl (by decide)]
  simp only [List.zip_cons_cons, List.zip_nil_left, List.forall_mem_cons, List.not_mem_nil, false_implies, implies_true,
    and_true, true_and, const_str_valid, Signing.integrityProfile, jsonProfile_valid, sha256_valid, hWarning]
  rw [externalSignature, total_valid rfl (by decide)]
  simp only [List.zip_cons_cons, List.zip_nil_left, List.forall_mem_cons, List.not_mem_nil, false_implies, implies_true,
    and_true, const_str_valid, Signing.receiptPayloadType]

theorem times_of_collectSnapshot {u : Unicode} {root : List String} {tree : Option Entry} {times : CaptureTimes}
    {snapshot : Snapshot} (h : collectSnapshot u limits p root tree times = .ok snapshot) : snapshot.times = times := by
  simp only [collectSnapshot, Except.bind_eq_ok_iff, Except.pure_eq_ok_iff] at h
  obtain ⟨_, -, _, -, _, -, _, -, _, -, _, -, rfl⟩ := h
  rfl

end

section
variable {t : Toolkit} {lib : Libraries} {runtime : Runtime} {limits : ScanLimits}

/-- What is inspected, within the bounds of the extractors. -/
structure Inspected.Bounded (p : Platform) (limits : ScanLimits) (inspected : Inspected) : Prop where
  accepted : inspected.snapshot.Accepted p limits
  source : inspected.snapshot.times.source ∈ ["system-clock", "caller-supplied-reproducibility-override"]
  parsed : inspected.parsed.Bounded limits
  static : inspected.static.Bounded limits

theorem bounded_inspect {root : List String} {tree : Option Entry} {generatedAt : Option String} {timestamp : Int}
    {clock : Clock} {inspected : Inspected}
    (h : inspect t lib limits root tree (captureTimes t generatedAt timestamp clock) = .ok inspected) :
    inspected.Bounded t.toPlatform limits := by
  simp only [inspect, Except.bind_eq_ok_iff, Except.pure_eq_ok_iff] at h
  obtain ⟨snapshot, hSnapshot, parsed, hParsed, static, hStatic, rfl⟩ := h
  have accepted := accepted_of_collectSnapshot hSnapshot
  refine ⟨accepted, ?_, bounded_parseSkill accepted hParsed, bounded_analyzeStatic accepted hStatic⟩
  rw [times_of_collectSnapshot hSnapshot]
  cases generatedAt <;> simp [captureTimes]

theorem sealReceipt_valid {inspected : Inspected} (bounded : inspected.Bounded t.toPlatform limits)
    {timestamp expiresAt : Int} {provenance : Option ProvenanceEvidence} {independentStaticScan : Bool}
    {core : List (String × Json)}
    (h : receiptCore t lib runtime limits inspected timestamp expiresAt provenance independentStaticScan = .ok core) :
    schema.valid (sealReceipt t.toPlatform core) = true ↔ Conforms lib runtime provenance inspected := by
  obtain ⟨snapshot, parsed, static⟩ := inspected
  simp only [receiptCore, Except.bind_eq_ok_iff, Except.pure_eq_ok_iff] at h
  obtain ⟨artifactFound, hArtifact, validation, hValidation, license, hLicense, analysis, hAnalysis, rfl⟩ := h
  simp only [sealReceipt, sealMembers, List.cons_append, List.nil_append]
  rw [schema, total_valid rfl (by decide)]
  simp only [List.zip_cons_cons, List.zip_nil_left, List.forall_mem_cons, List.not_mem_nil, false_implies, implies_true,
    and_true, true_and, const_str_valid, receiptSchemaVersion, Signing.integrityAssurance, sha256_valid,
    artifact_valid bounded.accepted bounded.source hArtifact, provenance_valid,
    formatValidation_valid bounded.parsed hValidation, licenseEvidence_valid bounded.accepted hLicense,
    staticAnalysis_valid bounded.static hAnalysis, labels_valid, levels_valid parsed bounded.static, decision_valid,
    validity_valid, policy_valid, methodology_valid, authentication_valid, limitations_valid, sha256Json, receiptId_valid,
    integrity_valid]
  constructor
  · rintro ⟨⟨hExcludedCount, hExcluded⟩, hProvenance, hReferences, hLicenses, ⟨hDependencies, hLanguages, hHosts⟩, hRuntime⟩
    exact ⟨hExcludedCount, hExcluded, hReferences, hLicenses, hDependencies, hLanguages, hHosts, hRuntime, hProvenance⟩
  · intro conforms
    exact ⟨⟨conforms.excludedCount, conforms.excluded⟩, conforms.provenance, conforms.references, conforms.licenses,
      ⟨conforms.dependencies, conforms.languages, conforms.hosts⟩, conforms.runtime⟩

/-- A receipt satisfies its schema exactly when what the inspector does not see to is right. -/
theorem inspectSkill_valid {clock : Clock} {root : List String} {tree : Option Entry} {generatedAt : Option String}
    {expiresInDays : Int} {provenance : Option ProvenanceEvidence} {independentStaticScan : Bool} {receipt : Json}
    (h : inspectSkill t lib runtime limits clock root tree generatedAt expiresInDays provenance independentStaticScan =
      .ok receipt) :
    ∃ timestamp inspected,
      inspect t lib limits root tree (captureTimes t generatedAt timestamp clock) = .ok inspected ∧
        (schema.valid receipt = true ↔ Conforms lib runtime provenance inspected) := by
  simp only [inspectSkill, Except.bind_eq_ok_iff, Except.pure_eq_ok_iff] at h
  obtain ⟨_, -, timestamp, -, inspected, hInspected, _, -, core, hCore, rfl⟩ := h
  exact ⟨timestamp, inspected, hInspected, sealReceipt_valid (bounded_inspect hInspected) hCore⟩

end

end Inspection

end VouchSpec
