import VouchSpec.Inspection.Eligibility
import VouchSpec.Inspection.Manifests
import VouchSpec.Inspection.Serialised

/-! Hostile content: what a file tree may hold for the inspector to return, and a
link that makes it raise. -/

namespace VouchSpec

namespace Inspection

theorem splitFrom_eq_nil (line characters : List Char) :
    Lines.splitFrom line characters = [] ↔ line = [] ∧ characters = [] := by
  fun_induction Lines.splitFrom line characters with
  | case1 => simp
  | case2 line hLine => simp [hLine]
  | case3 line c hBreak => simp
  | case4 line c hBreak => simp
  | case5 line c next rest hPair ih => simp
  | case6 line c next rest hPair hBreak ih => simp
  | case7 line c next rest hPair hBreak ih => simp [ih]

/-- The text of the skill file, when it is looked at. -/
def SkillText (snapshot : Snapshot) (text : List Char) : Prop :=
  ∃ file, snapshot.get? "SKILL.md" = some file ∧ Bytes.decodeUtf8 file.content = some text ∧ Char.ofNat 0 ∉ text

/-- The frontmatter that is handed to the YAML library. -/
def rawFrontmatter (lib : Libraries) (text : List Char) : Option (List Char) :=
  match Lines.split text with
  | [] => none
  | first :: lines =>
      let inside := lines.takeWhile fun line => !isFence line
      if isFence first = true ∧ inside.length ≠ lines.length ∧
          (Bytes.utf8 (Lines.join inside)).length ≤ maxFrontmatterBytes ∧
          (lib.finditer aliasPattern (Lines.join inside)).length ≤ maxYamlAliases then
        some (Lines.join inside)
      else none

/-- The YAML library fails on the frontmatter in the ways that are caught only, and
then with a message. -/
def FrontmatterReadable (lib : Libraries) (text : List Char) : Prop :=
  ∀ raw, rawFrontmatter lib text = some raw → (∀ raised, readYaml lib raw ≠ .error (.other raised)) ∧
    readYaml lib raw ≠ .error (.caught "")

/-- A candidate that is not looked up, or holds no NUL. -/
def CandidateReadable (lib : Libraries) (candidate : Candidate) : Prop :=
  isLookedUp lib candidate = true → Char.ofNat 0 ∉ candidate.target

/-- No target that is looked up in the skill holds a NUL. -/
def LinksReadable (lib : Libraries) (limits : ScanLimits) (frontmatter : Frontmatter) : Prop :=
  ∀ candidate ∈ (collectCandidates lib limits.maxReferences [] false frontmatter.bodyStartLine
      (Lines.split frontmatter.body)).1, CandidateReadable lib candidate

/-- The fields that a receipt quotes, with the lengths at which it cuts them. -/
def claimLimits : List (String × Nat) :=
  [("name", 64), ("description", 1024), ("compatibility", 500), ("allowed-tools", 1000), ("license", 500)]

/-- A tree on which no library raises what the inspector does not catch, and no lone
surrogate is quoted. -/
structure Harmless (lib : Libraries) (limits : ScanLimits) (snapshot : Snapshot) : Prop where
  frontmatter : ∀ text, SkillText snapshot text → FrontmatterReadable lib text
  links : ∀ text frontmatter, SkillText snapshot text → parseFrontmatter lib text = .ok frontmatter →
    LinksReadable lib limits frontmatter
  manifests : ∀ item ∈ snapshot.files, Readable lib item
  claims : ∀ text frontmatter, SkillText snapshot text → parseFrontmatter lib text = .ok frontmatter →
    ∀ claim ∈ claimLimits, ∀ value, frontmatter.metadata.get claim.1 = .text value → Encodable (value.take claim.2)
  fields : ∀ text metadata findings references, SkillText snapshot text →
    readSkill lib limits snapshot text = .ok (metadata, findings, references) →
    ∀ field ∈ unknownFields metadata, unknownFieldFinding field ∈ capFindings limits findings →
      Encodable (field.take 200)
  declarations : ∀ dependency ∈ List.firstDistinct limits.maxDependencies
      (snapshot.files.flatMap fun item => (fileRecords lib item).1),
    Encodable dependency.declaration

/-- Resolving a path fails on a NUL, and on nothing else. -/
def Libraries.ResolvesText (lib : Libraries) : Prop :=
  ∀ root target, (∃ raised, lib.resolve root target = .error raised) ↔ Char.ofNat 0 ∈ target

section
variable {lib : Libraries} {limits : ScanLimits} {snapshot : Snapshot}

theorem parseFrontmatter_ok_iff {text : List Char} :
    (∃ frontmatter, parseFrontmatter lib text = .ok frontmatter) ↔ FrontmatterReadable lib text := by
  unfold parseFrontmatter FrontmatterReadable rawFrontmatter
  cases Lines.split text with
  | nil => simp [pure, Except.pure]
  | cons first lines =>
      simp only
      by_cases hFirst : isFence first = false
      · simp [hFirst, pure, Except.pure]
      · rw [if_neg hFirst]
        generalize lines.takeWhile (fun line => !isFence line) = inside
        by_cases hClosed : inside.length = lines.length
        · simp [hClosed, pure, Except.pure]
        · rw [if_neg hClosed]
          by_cases hLong : (Bytes.utf8 (Lines.join inside)).length > maxFrontmatterBytes
          · rw [if_pos hLong, if_neg (by omega)]
            simp [pure, Except.pure]
          · rw [if_neg hLong]
            by_cases hAliases : (lib.finditer aliasPattern (Lines.join inside)).length > maxYamlAliases
            · rw [if_pos hAliases, if_neg (by omega)]
              simp [pure, Except.pure]
            · rw [if_neg hAliases, if_pos ⟨by simpa using hFirst, hClosed, by omega, by omega⟩]
              simp only [Option.some.injEq, forall_eq']
              cases hYaml : readYaml lib (Lines.join inside) with
              | ok value => cases value <;> simp [pure, Except.pure]
              | error error =>
                  cases error with
                  | other raised => simp
                  | caught message =>
                      have hShown : (∃ line, (Lines.split message.toList).head? = some line) ↔ message ≠ "" := by
                        rw [← Option.isSome_iff_exists, List.isSome_head?, Ne, Lines.split, splitFrom_eq_nil]
                        simp
                      rw [← Option.isSome_iff_exists] at hShown
                      cases hHead : (Lines.split message.toList).head? with
                      | none => simp_all [Except.ofOption]
                      | some line => simp_all [Except.ofOption, pure, Except.pure]

theorem nul_mem_normalizedTarget (target : List Char) :
    Char.ofNat 0 ∈ normalizedTarget target ↔ Char.ofNat 0 ∈ target := by
  simp only [normalizedTarget, List.mem_map]
  constructor
  · rintro ⟨c, hMember, hC⟩
    split at hC
    · cases hC
    · exact hC ▸ hMember
  · intro hMember
    exact ⟨_, hMember, rfl⟩

/-- A step returns on what has been seen, and on what is readable. -/
theorem step_ok_iff (hResolves : lib.ResolvesText) (references : References) (candidate : Candidate) :
    (∃ after, references.step lib snapshot candidate = .ok after) ↔
      candidate ∈ references.seen ∨ CandidateReadable lib candidate := by
  unfold References.step CandidateReadable isLookedUp
  simp only
  by_cases hOld : candidate.target = [] ∨ candidate ∈ references.seen
  · rw [if_pos hOld]
    rcases hOld with hNone | hSeen
    · simp [hNone, pure, Except.pure]
    · simp [hSeen, pure, Except.pure]
  · rw [if_neg hOld]
    obtain ⟨hTarget, hNew⟩ := not_or.mp hOld
    cases hUrl : lib.urlparse candidate.target with
    | none => simp [pure, Except.pure]
    | some url =>
        simp only
        split
        · next hForeign => rcases hForeign with h | h <;> simp [h, pure, Except.pure]
        · next hForeign =>
            obtain ⟨hScheme, hFragment⟩ := not_or.mp hForeign
            split
            · next hOther => simp [hOther, pure, Except.pure]
            · next hPlain =>
                unfold resolveReference
                simp only
                split
                · next hAbsolute => simp [hAbsolute, pure, Except.pure]
                · next hRelative =>
                    have hNul := hResolves snapshot.root (normalizedTarget candidate.target)
                    rw [nul_mem_normalizedTarget] at hNul
                    cases hPath : lib.resolve snapshot.root (normalizedTarget candidate.target) with
                    | error raised =>
                        have hBad : Char.ofNat 0 ∈ candidate.target := hNul.mp ⟨raised, hPath⟩
                        simp_all
                    | ok resolved =>
                        have hGood : Char.ofNat 0 ∉ candidate.target := fun hBad => by
                          obtain ⟨raised, hRaised⟩ := hNul.mpr hBad
                          cases hPath.symm.trans hRaised
                        cases resolved <;> simp [hGood, pure, Except.pure]

theorem Referred.seen {references after : References} {candidate : Candidate}
    (referred : Referred lib snapshot references candidate after) :
    ∀ other ∈ after.seen, other = candidate ∨ other ∈ references.seen := by
  intro other hOther
  cases referred with
  | known => exact Or.inr hOther
  | outside path message hPath => exact List.mem_cons.mp hOther
  | external target hTarget =>
      unfold References.addExternal at hOther
      split at hOther <;> exact List.mem_cons.mp hOther
  | inside relative hLookedUp hResolved => exact List.mem_cons.mp hOther

/-- The loop returns when all that it has not seen is readable. -/
theorem loop_ok_iff (hResolves : lib.ResolvesText) {candidates : List Candidate} {references : References}
    (hSeen : ∀ candidate ∈ references.seen, CandidateReadable lib candidate) :
    (∃ after, candidates.foldlM (References.step lib snapshot) references = .ok after) ↔
      ∀ candidate ∈ candidates, CandidateReadable lib candidate := by
  induction candidates generalizing references with
  | nil => simp [pure, Except.pure]
  | cons candidate rest ih =>
      have hStep := @step_ok_iff lib snapshot hResolves references candidate
      rw [or_iff_right_of_imp (hSeen candidate)] at hStep
      simp only [List.foldlM_cons, Except.bind_eq_ok_iff, List.forall_mem_cons, ← hStep]
      have hNext : ∀ next, references.step lib snapshot candidate = .ok next →
          ∀ other ∈ next.seen, CandidateReadable lib other := by
        intro next hNext other hOther
        rcases (step_referred hNext).seen other hOther with rfl | hOld
        · exact hStep.mp ⟨next, hNext⟩
        · exact hSeen other hOld
      constructor
      · rintro ⟨last, next, hOk, hLast⟩
        exact ⟨⟨next, hOk⟩, (ih (hNext next hOk)).mp ⟨last, hLast⟩⟩
      · rintro ⟨⟨next, hOk⟩, hRest⟩
        obtain ⟨last, hLast⟩ := (ih (hNext next hOk)).mpr hRest
        exact ⟨last, next, hOk, hLast⟩

theorem extractReferences_ok_iff (hResolves : lib.ResolvesText) {frontmatter : Frontmatter} :
    (∃ references, extractReferences lib limits frontmatter.body snapshot frontmatter.bodyStartLine = .ok references) ↔
      LinksReadable lib limits frontmatter :=
  loop_ok_iff hResolves (by simp)

theorem readSkill_ok_iff (hResolves : lib.ResolvesText) {text : List Char} :
    (∃ result, readSkill lib limits snapshot text = .ok result) ↔ FrontmatterReadable lib text ∧
      ∀ frontmatter, parseFrontmatter lib text = .ok frontmatter → LinksReadable lib limits frontmatter := by
  rw [← parseFrontmatter_ok_iff]
  simp only [readSkill, Except.bind_eq_ok_iff, Except.pure_eq_ok_iff]
  constructor
  · rintro ⟨_, frontmatter, hFrontmatter, references, hReferences, -⟩
    refine ⟨⟨frontmatter, hFrontmatter⟩, ?_⟩
    intro other hOther
    obtain rfl : frontmatter = other := Except.ok.inj (hFrontmatter.symm.trans hOther)
    exact (extractReferences_ok_iff hResolves).mp ⟨references, hReferences⟩
  · rintro ⟨⟨frontmatter, hFrontmatter⟩, hLinks⟩
    obtain ⟨references, hReferences⟩ := (extractReferences_ok_iff hResolves).mpr (hLinks frontmatter hFrontmatter)
    exact ⟨_, frontmatter, hFrontmatter, references, hReferences, rfl⟩

theorem parseSkill_ok_iff (hResolves : lib.ResolvesText) : (∃ parsed, parseSkill lib limits snapshot = .ok parsed) ↔
    ∀ text, SkillText snapshot text → FrontmatterReadable lib text ∧
      ∀ frontmatter, parseFrontmatter lib text = .ok frontmatter → LinksReadable lib limits frontmatter := by
  simp only [← @readSkill_ok_iff lib limits snapshot hResolves]
  unfold parseSkill SkillText
  cases hFile : snapshot.get? "SKILL.md" with
  | none => simp
  | some file =>
      simp only [Option.some.injEq]
      cases hText : Bytes.decodeUtf8 file.content with
      | none =>
          simp [hText]
      | some text =>
          simp only
          by_cases hNul : Char.ofNat 0 ∈ text
          · simp [hNul, hText, pure, Except.pure]
          · rw [if_neg hNul]
            simp only [Except.bind_eq_ok_iff, Except.pure_eq_ok_iff]
            constructor
            · rintro ⟨_, result, hResult, -⟩ other ⟨_, rfl, hOther, -⟩
              obtain rfl : text = other := Option.some.inj (hText.symm.trans hOther)
              exact ⟨result, hResult⟩
            · intro hRead
              obtain ⟨result, hResult⟩ := hRead text ⟨file, rfl, hText, hNul⟩
              exact ⟨_, result, hResult, rfl⟩

theorem skillText_unique {first second : List Char} (hFirst : SkillText snapshot first)
    (hSecond : SkillText snapshot second) : first = second := by
  obtain ⟨file, hFile, hText, -⟩ := hFirst
  obtain ⟨other, hOther, hSame, -⟩ := hSecond
  rw [hFile] at hOther
  obtain rfl := Option.some.inj hOther
  exact Option.some.inj (hText.symm.trans hSame)

/-- What a parsed skill comes from: a text that was not looked at, or one that was. -/
theorem parseSkill_eq_ok {parsed : ParsedSkill} (h : parseSkill lib limits snapshot = .ok parsed) :
    ((∃ ruleId message, parsed = unreadable ruleId message) ∧ ∀ text, ¬ SkillText snapshot text) ∨
      ∃ text metadata findings references, SkillText snapshot text ∧
        readSkill lib limits snapshot text = .ok (metadata, findings, references) ∧ parsed.metadata = metadata ∧
        parsed.structuralFindings = capFindings limits findings := by
  unfold parseSkill at h
  split at h
  · next hFile =>
      refine Or.inl ⟨⟨_, _, (Except.ok.inj h).symm⟩, ?_⟩
      rintro text ⟨file, hFound, -⟩
      cases hFile.symm.trans hFound
  · next file hFile =>
      split at h
      · next hText =>
          refine Or.inl ⟨⟨_, _, (Except.ok.inj h).symm⟩, ?_⟩
          rintro text ⟨other, hFound, hOther, -⟩
          obtain rfl := Option.some.inj (hFile.symm.trans hFound)
          cases hText.symm.trans hOther
      · next text hText =>
          split at h
          · next hNul =>
              refine Or.inl ⟨⟨_, _, (Except.ok.inj h).symm⟩, ?_⟩
              rintro other ⟨found, hFound, hOther, hClean⟩
              obtain rfl := Option.some.inj (hFile.symm.trans hFound)
              obtain rfl := Option.some.inj (hText.symm.trans hOther)
              exact hClean hNul
          · next hNul =>
              obtain ⟨⟨metadata, findings, references⟩, hRead, h⟩ := Except.bind_eq_ok_iff.mp h
              rw [← Except.pure_eq_ok_iff.mp h]
              exact Or.inr ⟨text, metadata, findings, references, ⟨file, hFile, hText, hNul⟩, hRead, rfl, rfl⟩

theorem analyzeStatic_ok_iff {parsed : ParsedSkill} : (∃ static, analyzeStatic lib limits snapshot parsed = .ok static) ↔
    ∀ item ∈ snapshot.files, Readable lib item := by
  rw [← @dependencyRecords_ok_iff lib limits.maxDependencies]
  simp only [analyzeStatic, Except.bind_eq_ok_iff, Except.pure_eq_ok_iff]
  constructor
  · rintro ⟨_, manifests, hManifests, -⟩
    exact ⟨manifests, hManifests⟩
  · rintro ⟨manifests, hManifests⟩
    exact ⟨_, manifests, hManifests, rfl⟩

/-- The dependencies of an analysis are the first distinct ones of the manifests. -/
theorem mem_dependencies {parsed : ParsedSkill} {static : StaticAnalysis}
    (h : analyzeStatic lib limits snapshot parsed = .ok static) (dependency : Dependency) :
    dependency ∈ static.dependencies ↔ dependency ∈ List.firstDistinct limits.maxDependencies
      (snapshot.files.flatMap fun item => (fileRecords lib item).1) := by
  simp only [analyzeStatic, Except.bind_eq_ok_iff, Except.pure_eq_ok_iff] at h
  obtain ⟨manifests, hManifests, rfl⟩ := h
  have hKept := (manifests_of_loop hManifests).dependencies
  rw [(List.perm_insertionSort _ _).mem_iff, hKept]
  rfl

/-- What of a skill and its analysis is quoted can be serialised. -/
structure Quotable (parsed : ParsedSkill) (static : StaticAnalysis) : Prop where
  claims : ∀ claim ∈ claimLimits, ∀ value, parsed.metadata.get claim.1 = .text value → Encodable (value.take claim.2)
  findings : Safe parsed.structuralFindings
  dependencies : ∀ dependency ∈ static.dependencies, Encodable dependency.declaration

theorem claimsJson_ok_iff {metadata : Value} : (∃ claims, claimsJson metadata = .ok claims) ↔
    ∀ claim ∈ [("name", 64), ("description", 1024), ("compatibility", 500), ("allowed-tools", 1000)], ∀ value,
      metadata.get claim.1 = .text value → Encodable (value.take claim.2) := by
  simp only [claimsJson, Except.bind_eq_ok_iff, Except.pure_eq_ok_iff, List.forall_mem_cons, ← encodedClaim_ok_iff]
  constructor
  · rintro ⟨_, name, hName, description, hDescription, compatibility, hCompatibility, tools, hTools, -⟩
    exact ⟨⟨name, hName⟩, ⟨description, hDescription⟩, ⟨compatibility, hCompatibility⟩, ⟨tools, hTools⟩, by simp⟩
  · rintro ⟨⟨name, hName⟩, ⟨description, hDescription⟩, ⟨compatibility, hCompatibility⟩, ⟨tools, hTools⟩, -⟩
    exact ⟨_, name, hName, description, hDescription, compatibility, hCompatibility, tools, hTools, rfl⟩

theorem staticJson_ok_iff {static : StaticAnalysis} : (∃ json, static.json limits = .ok json) ↔
    ∀ dependency ∈ static.dependencies, Encodable dependency.declaration := by
  simp only [← dependency_ok_iff, ← Except.mapM_ok_iff, StaticAnalysis.json, Except.bind_eq_ok_iff,
    Except.pure_eq_ok_iff]
  constructor
  · rintro ⟨_, dependencies, hDependencies, -⟩
    exact ⟨dependencies, hDependencies⟩
  · rintro ⟨dependencies, hDependencies⟩
    exact ⟨_, dependencies, hDependencies, rfl⟩

/-- The core of a receipt is serialised when all that it quotes can be. -/
theorem receiptCore_ok_iff {t : Toolkit} {runtime : Runtime} {parsed : ParsedSkill} {static : StaticAnalysis}
    {timestamp expiresAt : Int} {provenance : Option ProvenanceEvidence} {independentStaticScan : Bool} :
    (∃ core, receiptCore t lib runtime limits ⟨snapshot, parsed, static⟩ timestamp expiresAt provenance
      independentStaticScan = .ok core) ↔ Quotable parsed static := by
  have hClaims : (∀ claim ∈ claimLimits, ∀ value, parsed.metadata.get claim.1 = .text value →
      Encodable (value.take claim.2)) ↔ (∃ claims, claimsJson parsed.metadata = .ok claims) ∧
        ∃ declared, encodedClaim (safeClaim (parsed.metadata.get "license") 500) = .ok declared := by
    rw [claimsJson_ok_iff, encodedClaim_ok_iff, claimLimits]
    simp [and_assoc]
  have hFindings : Safe parsed.structuralFindings ↔
      ∃ findings, parsed.structuralFindings.mapM Finding.json = .ok findings := by
    simp only [Except.mapM_ok_iff, finding_ok_iff]
    rfl
  simp only [receiptCore, artifactJson, formatValidationJson, licenseEvidence, Except.bind_eq_ok_iff,
    Except.pure_eq_ok_iff]
  constructor
  · rintro ⟨_, _, ⟨claims, hArtifact, -⟩, _, ⟨findings, hFormat, -⟩, _, ⟨declared, hLicense, -⟩, json, hStatic, -⟩
    exact ⟨hClaims.mpr ⟨⟨claims, hArtifact⟩, declared, hLicense⟩, hFindings.mpr ⟨findings, hFormat⟩,
      staticJson_ok_iff.mp ⟨json, hStatic⟩⟩
  · intro quotable
    obtain ⟨⟨claims, hArtifact⟩, declared, hLicense⟩ := hClaims.mp quotable.claims
    obtain ⟨findings, hFormat⟩ := hFindings.mp quotable.findings
    obtain ⟨json, hStatic⟩ := staticJson_ok_iff.mpr quotable.dependencies
    exact ⟨_, _, ⟨claims, hArtifact, rfl⟩, _, ⟨findings, hFormat, rfl⟩, _, ⟨declared, hLicense, rfl⟩, json, hStatic, rfl⟩

theorem mem_capFindings {findings : List Finding} {finding : Finding} (h : finding ∈ capFindings limits findings) :
    finding ∈ findings ∨ Encodable finding.message := by
  unfold capFindings at h
  split at h
  · rcases List.mem_append.mp h with hKept | hLast
    · exact Or.inl (List.mem_of_mem_take hKept)
    · exact Or.inr (safe_finding _ _ _ finding hLast)
  · exact Or.inl h

/-- The findings that are kept can be serialised when the fields they name can be. -/
theorem safe_capFindings_iff {text : List Char} {metadata : Value} {findings : List Finding} {references : References}
    (h : readSkill lib limits snapshot text = .ok (metadata, findings, references)) :
    Safe (capFindings limits findings) ↔ ∀ field ∈ unknownFields metadata,
      unknownFieldFinding field ∈ capFindings limits findings → Encodable (field.take 200) := by
  constructor
  · intro hSafe field _ hKept
    exact (encodable_unknownField field).mp (hSafe _ hKept)
  · intro hFields finding hFinding
    rcases mem_capFindings hFinding with hFound | hSafe
    · rcases readSkill_safe h finding hFound with hSafe | ⟨field, hField, rfl⟩
      · exact hSafe
      · exact (encodable_unknownField field).mpr (hFields field hField hFinding)
    · exact hSafe

theorem readSkill_metadata {text : List Char} {metadata : Value} {findings : List Finding} {references : References}
    (h : readSkill lib limits snapshot text = .ok (metadata, findings, references)) :
    ∃ frontmatter, parseFrontmatter lib text = .ok frontmatter ∧ frontmatter.metadata = metadata := by
  simp only [readSkill, Except.bind_eq_ok_iff, Except.pure_eq_ok_iff, Prod.mk.injEq] at h
  obtain ⟨frontmatter, hFrontmatter, -, -, hMetadata, -⟩ := h
  exact ⟨frontmatter, hFrontmatter, hMetadata⟩

/-- Whether a skill that was parsed can be quoted is read off its text. -/
theorem quotable_iff {parsed : ParsedSkill} {static : StaticAnalysis} (hParsed : parseSkill lib limits snapshot = .ok parsed)
    (hStatic : analyzeStatic lib limits snapshot parsed = .ok static) : Quotable parsed static ↔
      (∀ text frontmatter, SkillText snapshot text → parseFrontmatter lib text = .ok frontmatter →
        ∀ claim ∈ claimLimits, ∀ value, frontmatter.metadata.get claim.1 = .text value →
          Encodable (value.take claim.2)) ∧
      (∀ text metadata findings references, SkillText snapshot text →
        readSkill lib limits snapshot text = .ok (metadata, findings, references) →
        ∀ field ∈ unknownFields metadata, unknownFieldFinding field ∈ capFindings limits findings →
          Encodable (field.take 200)) ∧
      ∀ dependency ∈ List.firstDistinct limits.maxDependencies
        (snapshot.files.flatMap fun item => (fileRecords lib item).1), Encodable dependency.declaration := by
  simp only [← mem_dependencies hStatic]
  rcases parseSkill_eq_ok hParsed with ⟨⟨ruleId, message, rfl⟩, hNone⟩ |
      ⟨text, metadata, findings, references, hText, hRead, hMetadata, hFindings⟩
  · constructor
    · intro quotable
      exact ⟨fun text _ hText => absurd hText (hNone text), fun text _ _ _ hText => absurd hText (hNone text),
        quotable.dependencies⟩
    · rintro ⟨-, -, hDependencies⟩
      refine ⟨?_, safe_finding _ _ _, hDependencies⟩
      intro claim _ value hValue
      cases hValue
  · obtain ⟨frontmatter, hFrontmatter, hSame⟩ := readSkill_metadata hRead
    constructor
    · intro quotable
      refine ⟨?_, ?_, quotable.dependencies⟩
      · intro other found hOther hFound
        obtain rfl := skillText_unique hText hOther
        obtain rfl : frontmatter = found := Except.ok.inj (hFrontmatter.symm.trans hFound)
        rw [hSame, ← hMetadata]
        exact quotable.claims
      · intro other _ _ _ hOther hFound
        obtain rfl := skillText_unique hText hOther
        rw [hRead] at hFound
        obtain ⟨rfl, rfl, rfl⟩ : metadata = _ ∧ findings = _ ∧ references = _ := by
          simpa only [Except.ok.injEq, Prod.mk.injEq] using hFound
        exact (safe_capFindings_iff hRead).mp (hFindings ▸ quotable.findings)
    · rintro ⟨hClaims, hFields, hDependencies⟩
      refine ⟨?_, ?_, hDependencies⟩
      · rw [hMetadata, ← hSame]
        exact hClaims text frontmatter hText hFrontmatter
      · rw [hFindings]
        exact (safe_capFindings_iff hRead).mpr (hFields text metadata findings references hText hRead)

end

/-- An inspection of a captured tree fails in the parser, in the analysis, or where the
receipt is serialised. -/
theorem inspectSkill_ok_iff {t : Toolkit} {lib : Libraries} {runtime : Runtime} {limits : ScanLimits} {clock : Clock}
    {root : List String} {tree : Option Entry} {generatedAt : Option String} {timestamp expiresInDays : Int}
    {provenance : Option ProvenanceEvidence} {independentStaticScan : Bool} {snapshot : Snapshot}
    (hExpiry : 1 ≤ expiresInDays ∧ expiresInDays ≤ 30) (hTime : normalizeTime t generatedAt clock.now = .ok timestamp)
    (hLabel : independentStaticScan = true → provenance.isSome = true)
    (hSnapshot : collectSnapshot lib.toUnicode limits t.toPlatform root tree
      (captureTimes t generatedAt timestamp clock) = .ok snapshot) :
    (∃ receipt, inspectSkill t lib runtime limits clock root tree generatedAt expiresInDays provenance
      independentStaticScan = .ok receipt) ↔ ∃ parsed static, parseSkill lib limits snapshot = .ok parsed ∧
        analyzeStatic lib limits snapshot parsed = .ok static ∧ Quotable parsed static := by
  simp only [inspectSkill, inspect, Except.bind_eq_ok_iff, Except.pure_eq_ok_iff, require_of hExpiry, hTime,
    require_of hLabel, hSnapshot, Except.ok.injEq, exists_eq_left', exists_const, true_and]
  constructor
  · rintro ⟨_, inspected, ⟨parsed, hParsed, static, hStatic, rfl⟩, core, hCore, -⟩
    exact ⟨parsed, static, hParsed, hStatic, receiptCore_ok_iff.mp ⟨core, hCore⟩⟩
  · rintro ⟨parsed, static, hParsed, hStatic, quotable⟩
    obtain ⟨core, hCore⟩ := receiptCore_ok_iff.mpr quotable
    exact ⟨_, _, ⟨parsed, hParsed, static, hStatic, rfl⟩, core, hCore, rfl⟩

theorem Sample.resolvesText : Sample.libraries.ResolvesText := by
  intro root target
  show (∃ raised, Sample.resolve root target = .error raised) ↔ _
  unfold Sample.resolve
  split <;> simp_all

namespace Sample

def nulText : String := "---\nname: demo\ndescription: Demo.\n---\n[x](a%00b)\n"

/-- The libraries on that text: its link is found, and the escape in it is a NUL. -/
def nulLibraries : Libraries :=
  { libraries with
    finditer := fun pattern line =>
      if pattern = markdownLinkPattern ∧ line = "[x](a%00b)".toList then [⟨0, line, "a%00b".toList⟩] else []
    unquote := fun target => if target = "a%00b".toList then ['a', Char.ofNat 0, 'b'] else target }

theorem nulLibraries_resolvesText : nulLibraries.ResolvesText := resolvesText

theorem collect_nul (p : Platform) (times : CaptureTimes) :
    collectSnapshot nulLibraries.toUnicode limits p root (some (treeOf nulText)) times =
      .ok (snapshotOf p times nulText) := by
  rfl

theorem parse_nul (p : Platform) (times : CaptureTimes) :
    parseSkill nulLibraries limits (snapshotOf p times nulText) = .error (.valueError "embedded null byte") := by
  have hLines : Lines.split nulText.toList = ["---".toList, "name: demo".toList, "description: Demo.".toList,
      "---".toList, "[x](a%00b)".toList] := by decide +kernel
  have hFrontmatter : parseFrontmatter nulLibraries nulText.toList =
      .ok { metadata, body := "[x](a%00b)".toList, findings := [], bodyStartLine := 5 } := by
    unfold parseFrontmatter
    rw [hLines]
    rfl
  have hReferences : extractReferences nulLibraries limits "[x](a%00b)".toList (snapshotOf p times nulText) 5 =
      .error (.valueError "embedded null byte") := by
    rfl
  have hGet : (snapshotOf p times nulText).get? "SKILL.md" = some (fileData p "SKILL.md" (Bytes.utf8 nulText.toList)) :=
    rfl
  have hNul : Char.ofNat 0 ∉ nulText.toList := by decide
  simp only [parseSkill, hGet, fileData, Bytes.decodeUtf8_utf8, if_neg hNul, readSkill, hFrontmatter, bind,
    Except.bind, hReferences]

end Sample

end Inspection

end VouchSpec
