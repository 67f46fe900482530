import VouchSpec.Inspection.Conformance
import VouchSpec.Inspection.Seal
import VouchSpec.Lifecycle.Canonical
import VouchSpec.Signing.RoundTrip

/-! A receipt of the inspector, signed and verified: it is read back as it was written,
its embedded digest is right, and its envelope verifies when it satisfies the schema. -/

namespace VouchSpec

namespace Inspection

open Signing

/-- The matches of a pattern do not overlap. -/
def FindsApart (lib : Libraries) : Prop := ∀ pattern text, (lib.finditer pattern text).length ≤ text.length + 1

section
variable {lib : Libraries} {limits : ScanLimits} {scan : Scan}

theorem addUrl_malformed (url : List Char) :
    (scan.addUrl lib limits url).malformedUrlCount ≤ scan.malformedUrlCount + 1 := by
  unfold Scan.addUrl
  split
  · exact le_refl _
  · exact Nat.le_succ _
  · simp only
    split
    · exact Nat.le_succ _
    · split
      · exact Nat.le_succ _
      · split <;> exact Nat.le_succ _

theorem addUrls_malformed (found : List Match) :
    (found.foldl (fun scan match_ => scan.addUrl lib limits match_.text) scan).malformedUrlCount ≤
      scan.malformedUrlCount + found.length := by
  induction found generalizing scan with
  | nil => exact le_refl _
  | cons first rest ih =>
      have hRest := @ih (scan.addUrl lib limits first.text)
      have hFirst := @addUrl_malformed lib limits scan first.text
      rw [List.foldl_cons, List.length_cons]
      omega

theorem applyRule_malformed (path : String) (lineNumber : Nat) (line : List Char) (rule : Rule) :
    (scan.applyRule lib limits path lineNumber line rule).malformedUrlCount = scan.malformedUrlCount := by
  unfold Scan.applyRule
  split
  · rfl
  · split
    · rfl
    · split <;> rfl

theorem applyIndicator_malformed (lowered : List Char) (evidence : Evidence) (indicator : Requirement × List String) :
    (scan.applyIndicator limits lowered evidence indicator).malformedUrlCount = scan.malformedUrlCount := by
  unfold Scan.applyIndicator Scan.addRequirement
  split
  · split <;> rfl
  · rfl

theorem scanLine_malformed (hApart : FindsApart lib) (path : String) (line : List Char) (lineNumber : Nat) :
    (scan.scanLine lib limits path line lineNumber).malformedUrlCount ≤ scan.malformedUrlCount + (line.length + 1) := by
  have hUrls := (@addUrls_malformed lib limits scan (lib.finditer urlPattern line)).trans
    (Nat.add_le_add_left (hApart urlPattern line) _)
  have hRules := List.foldlRecOn (motive := fun after : Scan => after.malformedUrlCount ≤
      scan.malformedUrlCount + (line.length + 1)) rules (Scan.applyRule lib limits path lineNumber line) hUrls
    fun _ reached rule _ => (applyRule_malformed path lineNumber line rule).trans_le reached
  exact List.foldlRecOn (motive := fun after : Scan => after.malformedUrlCount ≤
      scan.malformedUrlCount + (line.length + 1)) _ _ hRules
    fun _ reached indicator _ => (applyIndicator_malformed _ _ indicator).trans_le reached

theorem scanLines_malformed (hApart : FindsApart lib) (path : String) {lines : List (List Char)} {most : Nat}
    (hLines : ∀ line ∈ lines, line.length ≤ most) (lineNumber : Nat) :
    (scan.scanLines lib limits path lineNumber lines).malformedUrlCount ≤
      scan.malformedUrlCount + lines.length * (most + 1) := by
  induction lines generalizing scan lineNumber with
  | nil => simp [Scan.scanLines]
  | cons line rest ih =>
      have hLine := @scanLine_malformed lib limits scan hApart path line lineNumber
      have hShort := hLines line List.mem_cons_self
      have hRest := @ih (scan.scanLine lib limits path line lineNumber)
        (fun other hOther => hLines other (List.mem_cons_of_mem _ hOther)) (lineNumber + 1)
      rw [Scan.scanLines, List.length_cons, Nat.succ_mul]
      omega

theorem addLanguage_malformed (item : FileData) :
    (scan.addLanguage lib item).malformedUrlCount = scan.malformedUrlCount := by
  unfold Scan.addLanguage
  split
  · simp only
    split <;> split <;> rfl
  · rfl

theorem scanFile_malformed (hApart : FindsApart lib) {p : Platform} {item : FileData} (good : GoodFile p limits item) :
    (scan.scanFile lib limits item).malformedUrlCount ≤ scan.malformedUrlCount + 10 ^ 14 := by
  have hLanguage := @addLanguage_malformed lib scan item
  unfold Scan.scanFile
  simp only
  split
  · omega
  · split
    · simp only
      omega
    · split
      · simp only
        omega
      · next text hDecoded =>
          have hText := good.length_text hDecoded
          have hCount : (Lines.split text).length ≤ text.length + 1 := Lines.splitFrom_length_le [] text
          have hEach : ∀ line ∈ Lines.split text, line.length ≤ 2000000 := by
            intro line hLine
            have hShort := Lines.length_of_mem_splitFrom [] text line hLine
            rw [List.length_nil] at hShort
            omega
          have hLines := @scanLines_malformed lib limits (scan.addLanguage lib item) hApart item.path _ _ hEach 1
          have hProduct : (Lines.split text).length * (2000000 + 1) ≤ 2000001 * 2000001 :=
            Nat.mul_le_mul (by omega) (le_refl _)
          omega

theorem scanFiles_malformed (hApart : FindsApart lib) {p : Platform} {files : List FileData}
    (hFiles : ∀ file ∈ files, GoodFile p limits file) :
    (files.foldl (Scan.scanFile lib limits) scan).malformedUrlCount ≤ scan.malformedUrlCount + files.length * 10 ^ 14 := by
  induction files generalizing scan with
  | nil => simp
  | cons file rest ih =>
      have hFirst := @scanFile_malformed lib limits scan hApart p file (hFiles file List.mem_cons_self)
      have hRest := @ih (scan.scanFile lib limits file) fun other hOther => hFiles other (List.mem_cons_of_mem _ hOther)
      rw [List.foldl_cons, List.length_cons, Nat.succ_mul]
      omega

theorem malformedUrlCount_le (hApart : FindsApart lib) {p : Platform} {snapshot : Snapshot}
    (accepted : snapshot.Accepted p limits) {skill : ParsedSkill} {static : StaticAnalysis}
    (h : analyzeStatic lib limits snapshot skill = .ok static) : static.malformedUrlCount ≤ 10 ^ 17 := by
  have hFiles := @scanFiles_malformed lib limits {} hApart p snapshot.files accepted.files
  have hCount := accepted.fileCount
  have hCeiling := limits.ceilings
  have hProduct : snapshot.files.length * 10 ^ 14 ≤ 1000 * 10 ^ 14 := Nat.mul_le_mul_right _ (by omega)
  have hAfter : (scanSnapshot lib limits snapshot skill).malformedUrlCount =
      (snapshot.files.foldl (Scan.scanFile lib limits) {}).malformedUrlCount := by
    unfold scanSnapshot Scan.addRequirement
    simp only
    split
    · split <;> rfl
    · rfl
  simp only [analyzeStatic, Except.bind_eq_ok_iff, Except.pure_eq_ok_iff] at h
  obtain ⟨manifests, -, rfl⟩ := h
  simp only at hFiles hAfter ⊢
  omega

theorem plain_nat {number : Nat} (h : number ≤ 10 ^ 17) (depth : Nat) : (Json.int number).Plain depth := by
  have hPower : 10 ^ 17 < 10 ^ Json.maxDigits := Nat.pow_lt_pow_right (by decide) (by decide)
  rw [Json.plain_int, Int.natAbs_natCast]
  exact h.trans_lt hPower

theorem plain_strings (values : List String) (depth : Nat) : (strings values).Plain (depth + 1) := by
  simp [strings]

theorem plain_encoded {text : Text} {json : Json} (h : encoded text = .ok json) (depth : Nat) : json.Plain depth := by
  obtain ⟨value, rfl, -⟩ := encoded_eq_ok h
  exact Json.plain_str depth value

theorem plain_claim {claim : Option Text} {json : Json} (h : encodedClaim claim = .ok json) (depth : Nat) :
    json.Plain depth := by
  cases claim with
  | none =>
      obtain rfl := Except.ok.inj h
      exact Json.plain_null depth
  | some text => exact plain_encoded h depth

theorem plain_artifact {p : Platform} {snapshot : Snapshot} (accepted : snapshot.Accepted p limits) {metadata : Value}
    {json : Json} (h : artifactJson snapshot metadata = .ok json) : json.Plain 3 := by
  have hCeiling := limits.ceilings
  have hCount := accepted.fileCount
  have hTotal := accepted.totalBytes
  have hFiles : ∀ file ∈ snapshot.files, (Json.int file.size).Plain 0 := by
    intro file hFile
    have hSize := (accepted.files file hFile).bounded
    exact plain_nat (by omega) 0
  simp only [artifactJson, claimsJson, Except.bind_eq_ok_iff, Except.pure_eq_ok_iff] at h
  obtain ⟨_, ⟨name, hName, description, hDescription, compatibility, hCompatibility, tools, hTools, rfl⟩, rfl⟩ := h
  simp only [Json.plain_obj, Json.plain_arr, Json.plain_str, List.forall_mem_cons, List.map_cons, List.map_nil,
    List.forall_mem_map, List.not_mem_nil, false_implies, implies_true, and_true, true_and, plain_nat (show
      snapshot.files.length ≤ 10 ^ 17 by omega), plain_nat (show snapshot.totalBytes ≤ 10 ^ 17 by omega),
    plain_claim hName, plain_claim hDescription, plain_claim hCompatibility, plain_claim hTools, FileData.json, scopeJson,
    plain_strings]
  exact ⟨by decide, by decide, by decide, fun file hFile => ⟨by decide, hFiles file hFile⟩, by decide⟩

theorem plain_provenance (provenance : Option ProvenanceEvidence) : (provenanceJson provenance).Plain 2 := by
  cases provenance <;> simp [provenanceJson]

theorem plain_mapM {Item : Type} {change : Item → Except Raised Json} {items : List Item} {results : List Json}
    (h : items.mapM change = .ok results) {depth : Nat}
    (hPlain : ∀ found ∈ items, ∀ json, change found = .ok json → json.Plain depth) :
    (Json.arr results).Plain (depth + 1) := by
  intro json hJson
  obtain ⟨found, hFound, hChange⟩ := (Except.forall₂_of_mapM h).exists_left hJson
  exact hPlain found hFound json hChange

theorem IsLine.plain {line : Nat} (h : IsLine line) (depth : Nat) : (Json.int line).Plain depth :=
  plain_nat (h.2.trans (by decide)) depth

theorem plain_finding {finding : Finding} (formed : finding.Formed) {json : Json} (h : finding.json = .ok json) :
    json.Plain 1 := by
  simp only [Finding.json, Except.bind_eq_ok_iff, Except.pure_eq_ok_iff] at h
  obtain ⟨message, hMessage, rfl⟩ := h
  have hText := plain_encoded hMessage 0
  cases hLine : finding.line with
  | none => simp [hText]
  | some line =>
      have hNumber := (formed.line line hLine).plain 0
      simp only [Json.plain_obj, List.cons_append, List.nil_append, List.map_cons, List.map_nil, List.forall_mem_cons,
        List.not_mem_nil, false_implies, implies_true, and_true, Json.plain_str, hText, hNumber]
      decide

theorem plain_validation {parsed : ParsedSkill} (bounded : parsed.Bounded limits) {json : Json}
    (h : formatValidationJson parsed = .ok json) : json.Plain 3 := by
  simp only [formatValidationJson, Except.bind_eq_ok_iff, Except.pure_eq_ok_iff] at h
  obtain ⟨findings, hFindings, rfl⟩ := h
  have hAll : (Json.arr findings).Plain 2 :=
    plain_mapM hFindings fun finding hFinding json hJson => plain_finding (bounded.findings finding hFinding) hJson
  have hLocal : (Json.arr (parsed.localReferences.map LocalReference.json)).Plain 2 := by
    simp only [Json.plain_arr, List.forall_mem_map, LocalReference.json, Json.plain_obj, List.map_cons, List.map_nil,
      List.forall_mem_cons, List.not_mem_nil, false_implies, implies_true, and_true, Json.plain_str, true_and]
    exact fun reference hReference => ⟨by decide, (bounded.lines reference hReference).plain 0⟩
  rw [Json.plain_obj]
  refine ⟨by simp, ?_⟩
  simp only [List.forall_mem_cons, List.not_mem_nil, false_implies, implies_true, and_true, Json.plain_str, hAll, hLocal,
    plain_strings]

theorem plain_license {parsed : ParsedSkill} {paths : List String} {json : Json}
    (h : licenseEvidence lib parsed paths = .ok json) : json.Plain 2 := by
  simp only [licenseEvidence, Except.bind_eq_ok_iff, Except.pure_eq_ok_iff] at h
  obtain ⟨declared, hDeclared, rfl⟩ := h
  rw [Json.plain_obj]
  refine ⟨by simp, ?_⟩
  simp only [List.forall_mem_cons, List.not_mem_nil, false_implies, implies_true, and_true, Json.plain_str,
    plain_claim hDeclared, plain_strings]

theorem plain_signal {static : StaticAnalysis} (bounded : static.Bounded limits) (kind : Requirement) :
    (signal static limits kind).Plain 3 := by
  have hCeiling := limits.ceilings
  have hMost := plain_nat (show limits.maxRequirementEvidencePerKind ≤ 10 ^ 17 by omega) 2
  have hEvidence : (Json.arr ((static.requirementEvidence kind).map Evidence.json)).Plain 2 := by
    simp only [Json.plain_arr, List.forall_mem_map, Evidence.json, Json.plain_obj, List.map_cons, List.map_nil,
      List.forall_mem_cons, List.not_mem_nil, false_implies, implies_true, and_true, Json.plain_str, true_and]
    exact fun evidence hEvidence => ⟨by decide, (bounded.evidence kind evidence hEvidence).line.plain 0⟩
  rw [signal, Json.plain_obj]
  refine ⟨by simp, ?_⟩
  simp only [List.forall_mem_cons, List.not_mem_nil, false_implies, implies_true, and_true, Json.plain_str,
    Json.plain_bool, hEvidence, hMost]

theorem plain_static {static : StaticAnalysis} (bounded : static.Bounded limits)
    (hMalformed : static.malformedUrlCount ≤ 10 ^ 17) {json : Json} (h : static.json limits = .ok json) :
    json.Plain 5 := by
  have hCeiling := limits.ceilings
  have hCount := bounded.findingCount
  have hFileCount := bounded.files
  have hSeverity : ∀ severity, (Json.int (static.count severity)).Plain 3 := by
    intro severity
    have hSome : static.count severity ≤ static.findings.length := List.countP_le_length
    exact plain_nat (by omega) 3
  have hSummary : static.summary.Plain 4 := by
    rw [StaticAnalysis.summary, Json.plain_obj]
    refine ⟨by simp, ?_⟩
    simp only [List.forall_mem_cons, List.not_mem_nil, false_implies, implies_true, and_true, hSeverity,
      plain_nat (show static.findings.length ≤ 10 ^ 17 by omega)]
  have hFindings : (Json.arr (static.findings.map StaticFinding.json)).Plain 4 := by
    simp only [Json.plain_arr, List.forall_mem_map, StaticFinding.json, Json.plain_obj, List.map_cons, List.map_nil,
      List.forall_mem_cons, List.not_mem_nil, false_implies, implies_true, and_true, Json.plain_str, true_and]
    exact fun finding hFinding => ⟨by decide, (bounded.findings finding hFinding).line.plain 2⟩
  have hSkipped : (Json.arr (static.skippedTextFiles.map SkippedFile.json)).Plain 4 := by
    simp [SkippedFile.json]
  have hCoverage : (static.coverage limits).Plain 4 := by
    rw [StaticAnalysis.coverage, Json.plain_obj]
    refine ⟨by simp, ?_⟩
    simp only [List.forall_mem_cons, List.not_mem_nil, false_implies, implies_true, and_true, Json.plain_bool, true_and]
    refine ⟨?_, ?_, ?_, ?_, ?_, ?_⟩ <;> exact plain_nat (by omega) 3
  have hRequirements : (static.requirementsJson limits).Plain 4 := by
    rw [StaticAnalysis.requirementsJson, Json.plain_obj]
    refine ⟨by simp, ?_⟩
    simp only [List.forall_mem_cons, List.not_mem_nil, false_implies, implies_true, and_true, plain_signal bounded]
  have hFailures : (Json.arr (static.manifestParseFailures.map ManifestFailure.json)).Plain 4 := by
    simp [ManifestFailure.json]
  simp only [StaticAnalysis.json, Except.bind_eq_ok_iff, Except.pure_eq_ok_iff] at h
  obtain ⟨dependencies, hDependencies, rfl⟩ := h
  have hDeclared : (Json.arr dependencies).Plain 4 := by
    refine plain_mapM hDependencies fun dependency _ json hJson => ?_
    simp only [Dependency.json, Except.bind_eq_ok_iff, Except.pure_eq_ok_iff] at hJson
    obtain ⟨declaration, hDeclaration, rfl⟩ := hJson
    simp [plain_encoded hDeclaration]
  rw [Json.plain_obj]
  refine ⟨by simp, ?_⟩
  simp only [List.forall_mem_cons, List.not_mem_nil, false_implies, implies_true, and_true, Json.plain_str, hSummary,
    hFindings, hSkipped, hCoverage, hRequirements, hDeclared, hFailures, plain_strings]

theorem plain_level {number : Nat} (hNumber : number ≤ 6) (name status : String) {evidence : List (String × Json)}
    (hEvidence : evidence = [] ∨ ∃ shown, evidence = [("evidence", .str shown)]) :
    (level number name status evidence).Plain 1 := by
  have hLevel := plain_nat (hNumber.trans (by decide)) 0
  rw [level]
  rcases hEvidence with rfl | ⟨shown, rfl⟩
  · rw [List.append_nil, Json.plain_obj]
    refine ⟨by simp, ?_⟩
    simp only [List.forall_mem_cons, List.not_mem_nil, false_implies, implies_true, and_true, Json.plain_str, hLevel]
  · simp only [List.cons_append, List.nil_append]
    rw [Json.plain_obj]
    refine ⟨by simp, ?_⟩
    simp only [List.forall_mem_cons, List.not_mem_nil, false_implies, implies_true, and_true, Json.plain_str, hLevel]

theorem plain_levels (parsed : ParsedSkill) (static : StaticAnalysis) (provenanceVerified : Bool) :
    (levels parsed static provenanceVerified).Plain 3 := by
  have hSmall : ∀ number ∈ [0, 1, 2, 3], ∀ depth, (Json.int number).Plain depth := by
    intro number hNumber depth
    obtain ⟨count, hCount, rfl⟩ : ∃ count : Nat, count ≤ 3 ∧ (count : Int) = number := by
      simp only [List.mem_cons, List.not_mem_nil, or_false] at hNumber
      exact ⟨number.toNat, by omega, by omega⟩
    exact plain_nat (hCount.trans (by decide)) depth
  simp only [List.forall_mem_cons, List.not_mem_nil, false_implies, implies_true, and_true] at hSmall
  obtain ⟨hZero, hOne, hTwo, hThree⟩ := hSmall
  have hLevels := fun {number} hNumber name status shown =>
    @plain_level number hNumber name status [("evidence", .str shown)] (Or.inr ⟨shown, rfl⟩)
  have hBare := fun {number} hNumber name status => @plain_level number hNumber name status [] (Or.inl rfl)
  rw [levels, Json.plain_obj]
  refine ⟨by simp, ?_⟩
  simp only [List.forall_mem_cons, List.not_mem_nil, false_implies, implies_true, and_true, Json.plain_arr]
  refine ⟨?_, ?_, ?_⟩
  · split
    · split
      · exact hThree 2
      · exact hOne 2
    · exact hZero 2
  · split <;> simp only [List.forall_mem_cons, List.not_mem_nil, false_implies, implies_true, and_true, hZero, hOne,
      hTwo, hThree]
  · exact ⟨hLevels (by decide) _ _ _, hLevels (by decide) _ _ _, hLevels (by decide) _ _ _, hLevels (by decide) _ _ _,
      hBare (by decide) _ _, hBare (by decide) _ _, hBare (by decide) _ _⟩

theorem plain_policy {p : Platform} : (policyJson p limits).Plain 2 := by
  have hCeiling := limits.ceilings
  have hLimits : (limitsJson limits).Plain 1 := by
    rw [limitsJson, Json.plain_obj]
    refine ⟨by simp, ?_⟩
    simp only [List.forall_mem_cons, List.not_mem_nil, false_implies, implies_true, and_true]
    refine ⟨?_, ?_, ?_, ?_, ?_, ?_, ?_, ?_, ?_, ?_, ?_, ?_, ?_, ?_, ?_⟩ <;> exact plain_nat (by omega) 0
  rw [policyJson, withProfileSha256]
  simp [hLimits]

theorem plain_methodology {p : Platform} (runtime : Runtime) : (methodologyJson p runtime).Plain 2 := by
  rw [methodologyJson, withProfileSha256]
  simp

theorem plain_authentication : authenticationJson.Plain 2 := by
  simp [authenticationJson]

variable {t : Toolkit} {runtime : Runtime}

/-- What is inspected is sealed to a receipt that can be read back. -/
theorem sealable_receiptCore {inspected : Inspected} (bounded : inspected.Bounded t.toPlatform limits)
    (hMalformed : inspected.static.malformedUrlCount ≤ 10 ^ 17) {timestamp expiresAt : Int}
    {provenance : Option ProvenanceEvidence} {independentStaticScan : Bool} {core : List (String × Json)}
    (h : receiptCore t lib runtime limits inspected timestamp expiresAt provenance independentStaticScan = .ok core) :
    Sealable core 6 := by
  obtain ⟨snapshot, parsed, static⟩ := inspected
  simp only [receiptCore, Except.bind_eq_ok_iff, Except.pure_eq_ok_iff] at h
  obtain ⟨artifact, hArtifact, validation, hValidation, license, hLicense, analysis, hAnalysis, rfl⟩ := h
  have hSections : artifact.Plain 5 ∧ (provenanceJson provenance).Plain 5 ∧ validation.Plain 5 ∧ license.Plain 5 ∧
      analysis.Plain 5 ∧ (levels parsed static provenance.isSome).Plain 5 ∧ (policyJson t.toPlatform limits).Plain 5 ∧
      (methodologyJson t.toPlatform runtime).Plain 5 ∧ authenticationJson.Plain 5 :=
    ⟨(plain_artifact bounded.accepted hArtifact).mono (by decide), (plain_provenance _).mono (by decide),
      (plain_validation bounded.parsed hValidation).mono (by decide), (plain_license hLicense).mono (by decide),
      plain_static bounded.static hMalformed hAnalysis, (plain_levels _ _ _).mono (by decide),
      plain_policy.mono (by decide), (plain_methodology runtime).mono (by decide), plain_authentication.mono (by decide)⟩
  constructor
  · rw [Json.plain_obj]
    refine ⟨by simp, ?_⟩
    simp only [List.forall_mem_cons, List.not_mem_nil, false_implies, implies_true, and_true, Json.plain_str, hSections,
      plain_strings, Json.plain_obj, List.map_cons, List.map_nil, true_and]
    exact ⟨by decide, by decide⟩
  · simp
  · simp [Json.member, Json.get?]

theorem signReceiptBytes_eq_ok {Key : Type} {scheme : Ed25519 Key} {receipt : Json} {payload : Bytes}
    (hRead : ∀ code, t.strictJson payload code = .ok receipt) (hDict : isDict receipt = true)
    (hIntact : verifyReceiptIntegrity t receipt = true) (key : Key) {envelope : Json} :
    signReceiptBytes t scheme payload key = .ok envelope ↔
      signDssePayload t scheme receiptPayloadType payload key maxReceiptBytes = .ok envelope := by
  have hReceipt : ∀ message, readReceipt t payload message = .ok receipt := by
    intro message
    simp only [readReceipt, hRead, require_of (And.intro hDict hIntact), bind, Except.bind, pure, Except.pure]
  simp only [signReceiptBytes, hReceipt, Except.bind_eq_ok_iff, require_eq_ok, exists_const, exists_eq_left',
    Except.ok.injEq]
  refine and_iff_right_of_imp fun hSigned => ?_
  exact (signDssePayload_eq_ok.mp hSigned).1

/-- The envelope of a receipt that can be read back, under the key that signed it. -/
theorem verifyReceiptEnvelope_signed {Key : Type} {scheme : Ed25519 Key} (hCorrect : scheme.Correct) {receipt : Json}
    {payload : Bytes} (hRead : ∀ code, t.strictJson payload code = .ok receipt) (hDict : isDict receipt = true)
    (hIntact : verifyReceiptIntegrity t receipt = true) {key : Key} {envelope : Json}
    (hSigned : signDssePayload t scheme receiptPayloadType payload key maxReceiptBytes = .ok envelope)
    (schema : Signing.Schema) :
    verifyReceiptEnvelope t scheme schema (jsonLine envelope) (publicJwk scheme key) =
      if schema receipt = true then .ok (receipt, payload)
      else .error (rejected "signed receipt does not match its schema" "invalid_receipt_schema") := by
  have hOpened := (verify_signed_iff t hCorrect .receipt payload key envelope hSigned).mpr (Or.inl (by decide))
  have hReceipt : ∀ message, readReceipt t payload message = .ok receipt := by
    intro message
    simp only [readReceipt, hRead, require_of (And.intro hDict hIntact), bind, Except.bind, pure, Except.pure]
  have hOpen : verifyDsseEnvelope t scheme (jsonLine envelope) receiptPayloadType (publicJwk scheme key)
      maxReceiptBytes = .ok payload := hOpened
  simp only [verifyReceiptEnvelope, hOpen, hReceipt, bind, Except.bind, require]
  cases schema receipt <;> rfl

/-- A receipt of the inspector is signed when it is not too large, and then verifies
exactly when it satisfies the published schema. -/
theorem inspected_receipt_verifies {Key : Type} {scheme : Ed25519 Key} (hCorrect : scheme.Correct)
    (hApart : FindsApart lib) {clock : Clock} {root : List String} {tree : Option Entry} {generatedAt : Option String}
    {expiresInDays : Int} {provenance : Option ProvenanceEvidence} {independentStaticScan : Bool} {receipt : Json}
    (h : inspectSkill t lib runtime limits clock root tree generatedAt expiresInDays provenance independentStaticScan =
      .ok receipt) {payload : Bytes} (hPayload : payload = deterministicJson receipt ∨ payload = jsonLine receipt)
    (key : Key) :
    ∃ timestamp inspected,
      normalizeTime t generatedAt clock.now = .ok timestamp ∧
        inspect t lib limits root tree (captureTimes t generatedAt timestamp clock) = .ok inspected ∧
        ((∃ envelope, signReceiptBytes t scheme payload key = .ok envelope) ↔ payload.length ≤ maxReceiptBytes) ∧
          ∀ envelope, signReceiptBytes t scheme payload key = .ok envelope →
            (Conforms lib runtime provenance inspected →
              verifyReceiptEnvelope t scheme ReceiptSchema.schema.valid (jsonLine envelope) (publicJwk scheme key) =
                .ok (receipt.sorted, payload)) ∧
              (¬Conforms lib runtime provenance inspected →
                verifyReceiptEnvelope t scheme ReceiptSchema.schema.valid (jsonLine envelope) (publicJwk scheme key) =
                  .error (rejected "signed receipt does not match its schema" "invalid_receipt_schema")) := by
  simp only [inspectSkill, Except.bind_eq_ok_iff, Except.pure_eq_ok_iff] at h
  obtain ⟨_, -, timestamp, hTime, inspected, hInspected, _, -, core, hCore, rfl⟩ := h
  have bounded := bounded_inspect hInspected
  have hMalformed : inspected.static.malformedUrlCount ≤ 10 ^ 17 := by
    simp only [inspect, Except.bind_eq_ok_iff, Except.pure_eq_ok_iff] at hInspected
    obtain ⟨snapshot, hSnapshot, parsed, -, static, hStatic, rfl⟩ := hInspected
    exact malformedUrlCount_le hApart bounded.accepted hStatic
  have sealable := sealable_receiptCore bounded hMalformed hCore
  have hPlain := (sealable.plain_seal (p := t.toPlatform) (by decide)).mono (show 6 ≤ readableDepth by decide)
  have hIntact := sealable.verify t (by decide)
  have hDict : isDict (sealReceipt t.toPlatform core).sorted = true := by
    rw [isDict_sorted]
    rfl
  have hRead : ∀ code, t.strictJson payload code = .ok (sealReceipt t.toPlatform core).sorted := by
    intro code
    rcases hPayload with rfl | rfl
    · exact t.strictJson_deterministicJson hPlain code
    · exact t.strictJson_jsonLine hPlain code
  have hSome : payload ≠ [] := by
    rcases hPayload with rfl | rfl
    · exact Lifecycle.deterministicJson_ne_nil _
    · rw [jsonLine]
      exact List.append_ne_nil_of_right_ne_nil _ (List.cons_ne_nil _ _)
  have hSigns := fun envelope => @signReceiptBytes_eq_ok t Key scheme _ _ hRead hDict hIntact key envelope
  refine ⟨timestamp, inspected, hTime, hInspected, ?_, ?_⟩
  · simp only [hSigns]
    constructor
    · rintro ⟨envelope, hSigned⟩
      exact (signDssePayload_eq_ok.mp hSigned).1.2
    · exact fun hSize => signDssePayload_profile t scheme .receipt payload hSome hSize key
  · intro envelope hEnvelope
    have hVerified := verifyReceiptEnvelope_signed hCorrect hRead hDict hIntact ((hSigns envelope).mp hEnvelope)
      ReceiptSchema.schema.valid
    have hSchema := sealReceipt_valid bounded hCore
    rw [hVerified, Schema.valid_sorted _ hPlain]
    constructor
    · exact fun conforms => if_pos (hSchema.mpr conforms)
    · exact fun hNot => if_neg fun hValid => hNot (hSchema.mp hValid)

theorem Sample.conforms (p : Platform) (times : CaptureTimes) :
    Conforms libraries Sample.runtime none ⟨snapshotOf p times skillText, parsed, static⟩ := by
  constructor
  · exact Nat.zero_le _
  · simp [snapshotOf]
  · simp [parsed]
  · exact (List.length_filter_le _ _).trans (by simp [snapshotOf])
  · simp [static]
  · simp [static]
  · simp [static]
  · simp [Runtime.Named, Sample.runtime]
  · simp

theorem inspected_receipt_verifies_sample : ∃ receipt,
    inspectSkill .standard Sample.libraries Sample.runtime Sample.limits Sample.clock Sample.root
        (some (Sample.treeOf Sample.skillText)) none 7 none false = .ok receipt ∧
      ((∃ envelope, signReceiptBytes .standard (.keyedDigest .standard) (jsonLine receipt) [1] = .ok envelope) ↔
        (jsonLine receipt).length ≤ maxReceiptBytes) ∧
        ∀ envelope, signReceiptBytes .standard (.keyedDigest .standard) (jsonLine receipt) [1] = .ok envelope →
          verifyReceiptEnvelope .standard (.keyedDigest .standard) ReceiptSchema.schema.valid (jsonLine envelope)
            (publicJwk (.keyedDigest .standard) [1]) = .ok (receipt.sorted, jsonLine receipt) := by
  obtain ⟨receipt, hReceipt⟩ := Sample.inspectSkill_sample .standard Sample.runtime Sample.clock
  have hApart : FindsApart Sample.libraries := fun _ _ => Nat.zero_le _
  obtain ⟨timestamp, inspected, -, hInspected, hSigned, hVerified⟩ := inspected_receipt_verifies
    (Ed25519.keyedDigest_correct .standard) hApart hReceipt (Or.inr rfl) [1]
  obtain rfl := Except.ok.inj ((Sample.inspect_sample .standard _).symm.trans hInspected)
  exact ⟨receipt, hReceipt, hSigned, fun envelope hEnvelope =>
    (hVerified envelope hEnvelope).1 (Sample.conforms _ _)⟩

end

end Inspection

end VouchSpec
