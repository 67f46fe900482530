import Mathlib.Data.Finset.Card
import Mathlib.Data.Prod.Lex
import VouchSpec.Inspection.Provenance
import VouchSpec.Inspection.Eligibility
import VouchSpec.Catalog.Binding

/-! The drafts of a catalog: the manifest of its sources, the receipts of their skills,
and the index over them, which is checked as a catalog's index is. -/

namespace VouchSpec

namespace Catalog

open Signing Inspection

/-- A record of the source manifest. -/
structure Source where
  repositoryOwner : String
  repository : String
  commit : String
  artifactPath : String
deriving DecidableEq

def invalidManifest (message : String) : Raised := rejected message "invalid_source_manifest"

/-- What makes a record one of its own. -/
def Source.identity (source : Source) : String × String × String :=
  (source.repository, source.commit, source.artifactPath)

/-- The end of a text is taken away when it is the given one. -/
def removeSuffix (suffix characters : List Char) : List Char :=
  if suffix <:+ characters then characters.take (characters.length - suffix.length) else characters

/-- `_repository_identity`. -/
def repositoryIdentity (urls : UrlTools) (repository : String) : Except Raised (String × String) := do
  let parsed ← urls.urlsplit repository
  require (parsed.scheme = "https" ∧ parsed.hostname = some "github.com" ∧ parsed.username.getD "" = "" ∧
      parsed.password.getD "" = "" ∧ parsed.query = "" ∧ parsed.fragment = "")
    (rejected "Stage A source must be a public HTTPS github.com repository" "source_not_allowed")
  let path := removeSuffix ".git".toList (Lines.stripWhile (fun c => c = '/') parsed.path.toList)
  match (PosixPath.segments (String.ofList path)).filter fun part => part ≠ "" with
  | [owner, name] => return (owner, owner ++ "--" ++ name)
  | _ => throw (rejected "Stage A source must identify one GitHub owner/repository" "source_not_allowed")

/-- A field of a record, which is no empty text. -/
def sourceField (source : Json) (field : String) : Except Raised String := do
  let text ← Except.ofOption (invalidManifest "source record values must be non-empty strings")
    (source.member field).str?
  require (text ≠ "") (invalidManifest "source record values must be non-empty strings")
  return text

section
variable (u : Unicode) (urls : UrlTools)

/-- One record, beside the identities of those before it. -/
def readSource (seen : List (String × String × String)) (value : Json) : Except Raised Source := do
  require (value.hasExactly ["repository_owner", "repository", "commit", "artifact_path"] = true)
    (invalidManifest "source record fields are invalid")
  let repositoryOwner ← sourceField value "repository_owner"
  let repository ← sourceField value "repository"
  let commit ← sourceField value "commit"
  let artifactPath ← sourceField value "artifact_path"
  let (owner, _) ← repositoryIdentity urls repository
  require (u.casefold repositoryOwner = u.casefold owner)
    (invalidManifest "repository_owner must exactly match the GitHub URL namespace")
  let source : Source := { repositoryOwner, repository, commit, artifactPath }
  require (source.identity ∉ seen) (invalidManifest "source records must be unique")
  return source

def readSources (seen : List (String × String × String)) : List Json → Except Raised (List Source)
  | [] => .ok []
  | value :: rest => do
      let source ← readSource u urls seen value
      let sources ← readSources (source.identity :: seen) rest
      return source :: sources

/-- `load_source_manifest`. -/
def loadSourceManifest (t : Toolkit) (bytes : Bytes) : Except Raised (List Source) := do
  let manifest ← t.strictJson bytes "invalid_source_manifest"
  require (manifest.hasExactly ["schema_version", "selection", "sources"] = true ∧
      manifest.member "schema_version" = .str "1.0.0") (invalidManifest "source manifest fields are invalid")
  let sources ← Lifecycle.boundedItems (manifest.member "sources") 1 100
    (invalidManifest "source manifest must contain 1 through 100 sources")
  readSources u urls [] sources

end

/-- The entry of the index for a source and the receipt of its skill. -/
def draftEntry (source : Source) (receipt : Json) : Except Raised Json := do
  let receiptId ← item receipt "receipt_id"
  let skillName ← skillNameOf receipt
  let provenance ← item receipt "provenance"
  let sourceRepository ← item provenance "source_repository"
  let sourceCommit ← item provenance "source_commit"
  let artifactPath ← item provenance "artifact_path"
  let artifactSha256 ← item (← item (← item receipt "artifact") "digest") "sha256"
  let evidenceLabels ← item receipt "evidence_labels"
  let validity ← item receipt "validity"
  let issuedAt ← item validity "generated_at"
  let expiresAt ← item validity "expires_at"
  return .obj [("receipt_id", receiptId), ("repository_owner", .str source.repositoryOwner),
    ("skill_name", skillName), ("source_repository", sourceRepository), ("source_commit", sourceCommit),
    ("artifact_path", artifactPath), ("artifact_sha256", artifactSha256), ("evidence_labels", evidenceLabels),
    ("issued_at", issuedAt), ("expires_at", expiresAt)]

/-- A member of an entry that is a text. -/
def entryText (entry : Json) (name : String) : String := (entry.member name).str?.getD ""

/-- An entry has a label. -/
def hasLabel (label : String) (entry : Json) : Bool :=
  match entry.member "evidence_labels" with
  | .arr labels => .str label ∈ labels
  | _ => false

section
variable (u : Unicode)

/-- What entries are sorted by. -/
def entryKey (entry : Json) : String ×ₗ String ×ₗ String :=
  toLex (u.casefold (entryText entry "repository_owner"),
    toLex (u.casefold (entryText entry "skill_name"), entryText entry "receipt_id"))

def sortEntries (entries : List Json) : List Json :=
  entries.insertionSort fun first second => entryKey u first ≤ entryKey u second

/-- The owners without regard to case. -/
def foldedOwners (entries : List Json) : List String :=
  (entries.map fun entry => u.casefold (entryText entry "repository_owner")).dedup

/-- `index`. -/
def draftIndex (generatedAt : String) (entries : List Json) : Json :=
  .obj [("schema_version", .str "1.0.0"), ("service", .str "VouchSpec"), ("stage", .str "A_PUBLIC_ARTIFACT_INDEX"),
    ("generated_at", .str generatedAt), ("entry_count", .int entries.length),
    ("repository_owner_count", .int (foldedOwners u entries).length), ("entries", .arr entries)]

/-- `report`, where there is a first entry. -/
def buildReport (generatedAt : String) (first : Json) (entries : List Json) : Json :=
  .obj [("generated_at", .str generatedAt), ("entry_count", .int entries.length),
    ("repository_owner_count", .int (foldedOwners u entries).length),
    ("structure_pass_count", .int (entries.countP (hasLabel "STRUCTURE_VALIDATED"))),
    ("structure_fail_count", .int (entries.countP fun entry => !hasLabel "STRUCTURE_VALIDATED" entry)),
    ("skipped_count", .int 0), ("artifact_code_executed", .bool false), ("customer_uploads_accepted", .bool false),
    ("private_artifacts_processed", .bool false), ("receipt_expires_at", first.member "expires_at"),
    ("build_phase", .str "networked-keyless-collection")]

end

/-- What the build leaves: the receipts by their ids, the index, and the report. -/
structure Collected where
  receipts : List (String × Bytes)
  index : Bytes
  report : Bytes
deriving DecidableEq

section
variable (t : Toolkit) (lib : Libraries) (urls : UrlTools) (runtime : Runtime) (clock : Clock)

/-- The receipt of a checked out source, which a month ends. -/
def draftReceipt (timestamp : Int) (checkout : Checkout) : Except Raised Json :=
  inspectGitSkill t lib urls runtime .default clock checkout (some (t.timestamp timestamp)) 30 true

/-- The loop over the sources. -/
def collectDrafts (checkoutOf : Source → Except Raised Checkout) (timestamp : Int) :
    List Source → Except Raised (List (Json × Json))
  | [] => .ok []
  | source :: rest => do
      let checkout ← checkoutOf source
      let receipt ← draftReceipt t lib urls runtime clock timestamp checkout
      let entry ← draftEntry source receipt
      let drafts ← collectDrafts checkoutOf timestamp rest
      return (receipt, entry) :: drafts

/-- `build_catalog_drafts` at a time of whole seconds; what was written is removed after
an exception. -/
def buildCatalogDrafts (checkoutOf : Source → Except Raised Checkout) (manifest : Bytes) (outputExists : Bool)
    (timestamp : Int) : Except Raised Collected := do
  let sources ← loadSourceManifest lib.toUnicode urls t manifest
  require (outputExists = false) (rejected "refusing to overwrite existing catalog drafts" "catalog_exists")
  let drafts ← collectDrafts t lib urls runtime clock checkoutOf timestamp sources
  let entries := sortEntries lib.toUnicode (drafts.map Prod.snd)
  let index := draftIndex lib.toUnicode (t.timestamp timestamp) entries
  let _ ← validateCatalogIndex index
  let first ← Except.ofOption .indexError entries.head?
  return { receipts := drafts.map fun draft => (entryText draft.1 "receipt_id", deterministicJson draft.1)
           index := deterministicJson index
           report := jsonLine (buildReport lib.toUnicode (t.timestamp timestamp) first entries) }

end

/-- An entry as the index has it. -/
def Entry.json (entry : Entry) : Json :=
  .obj [("receipt_id", .str entry.receiptId), ("repository_owner", .str entry.repositoryOwner),
    ("skill_name", .str entry.skillName), ("source_repository", .str entry.sourceRepository),
    ("source_commit", .str entry.sourceCommit), ("artifact_path", .str entry.artifactPath),
    ("artifact_sha256", .str entry.artifactSha256), ("evidence_labels", .arr (entry.evidenceLabels.map Json.str)),
    ("issued_at", entry.issuedAt), ("expires_at", entry.expiresAt)]

/-- What every draft's entry has. -/
structure Entry.Formed (entry : Entry) : Prop where
  receiptId : matchesReceiptId entry.receiptId = true
  skillName : entry.skillName ≠ ""
  sourceRepository : entry.sourceRepository ≠ ""
  sourceCommit : matchesCommitId entry.sourceCommit = true
  artifactPath : entry.artifactPath ≠ ""
  artifactSha256 : matchesSha256 entry.artifactSha256 = true
  evidenceLabels : entry.evidenceLabels ≠ [] ∧ entry.evidenceLabels.Nodup ∧
    ∀ label ∈ entry.evidenceLabels, label ∈ allowedLabels

/-- The texts of an entry that can be too long for an index. -/
structure Entry.Short (entry : Entry) : Prop where
  skillName : entry.skillName.toList.length ≤ 200
  sourceRepository : entry.sourceRepository.toList.length ≤ 2048
  artifactPath : entry.artifactPath.toList.length ≤ 1024

/-- What a receipt says that an index may not take: a long name of the directory of a skill
without a name, a long URL, or a long path. -/
structure ShortTexts (receipt : Json) : Prop where
  rootDirectory : ∀ name directory, valueAt receipt ["artifact", "claims_untrusted", "name"] = .ok name →
    isTruthy name = false → valueAt receipt ["artifact", "root_directory"] = .ok (.str directory) →
    directory.toList.length ≤ 200
  sourceRepository : ∀ url, valueAt receipt ["provenance", "source_repository"] = .ok (.str url) →
    url.toList.length ≤ 2048
  artifactPath : ∀ path, valueAt receipt ["provenance", "artifact_path"] = .ok (.str path) → path.toList.length ≤ 1024

section
variable {t : Toolkit} {lib : Libraries} {urls : UrlTools} {runtime : Runtime} {clock : Clock} {limits : ScanLimits}

/-- What a receipt of a checkout is made of. -/
theorem inspectGitSkill_eq_ok {checkout : Checkout} {generatedAt : Option String} {expiresInDays : Int}
    {independentStaticScan : Bool} {receipt : Json}
    (h : inspectGitSkill t lib urls runtime limits clock checkout generatedAt expiresInDays independentStaticScan =
      .ok receipt) :
    ∃ inspected timestamp expiresAt provenance core, inspected.snapshot.Accepted t.toPlatform limits ∧
      receiptCore t lib runtime limits inspected timestamp expiresAt (some provenance) independentStaticScan = .ok core ∧
      receipt = sealReceipt t.toPlatform core ∧ matchesCommit provenance.commit = true ∧
      provenance.repositoryUrl ≠ "" ∧ provenance.artifactPath ≠ "" := by
  simp only [inspectGitSkill, Except.bind_eq_ok_iff, require_eq_ok, exists_const, Except.pure_eq_ok_iff] at h
  obtain ⟨snapshot, hSnapshot, provenance, hProvenance, _, -, -, _, hReceipt, _, -, _, -, _, -, -, rfl⟩ := h
  simp only [inspectSkill, Except.bind_eq_ok_iff, require_eq_ok, exists_const, Except.pure_eq_ok_iff] at hReceipt
  obtain ⟨-, timestamp, -, inspected, hInspected, -, core, hCore, rfl⟩ := hReceipt
  simp only [inspect, Except.bind_eq_ok_iff, Except.pure_eq_ok_iff] at hInspected
  obtain ⟨third, hThird, parsed, -, static, -, rfl⟩ := hInspected
  obtain ⟨hCommit, hUrl, names, hNames, hPath⟩ := verifyGitProvenance_eq_ok hProvenance
  have hName := (accepted_of_collectSnapshot hSnapshot).rootName.1
  have hLast : names.getLast? ≠ some "" := by
    obtain ⟨front, hFront⟩ := hNames
    intro hEmpty
    rw [Snapshot.rootName, ← hFront, List.getLast?_append, hEmpty] at hName
    exact hName rfl
  exact ⟨_, _, _, _, core, accepted_of_collectSnapshot hThird, hCore, rfl, hCommit, hUrl,
    hPath ▸ PosixPath.asPosix_ne_empty hLast⟩

theorem length_safeClaim {value : Value} {limit : Nat} {claim : Text} (h : safeClaim value limit = some claim) :
    claim.length ≤ limit := by
  cases value with
  | text text =>
      obtain rfl := Option.some.inj h
      exact List.length_take_le _ _
  | _ => cases h

/-- A claim as it is serialised: null, or a text within its limit. -/
theorem encodedClaim_eq_ok {value : Value} {limit : Nat} {claim : Json}
    (h : encodedClaim (safeClaim value limit) = .ok claim) :
    claim = .null ∨ ∃ text, claim = .str text ∧ text.toList.length ≤ limit := by
  cases hClaim : safeClaim value limit with
  | none =>
      rw [hClaim] at h
      exact Or.inl (Except.ok.inj h).symm
  | some text =>
      rw [hClaim] at h
      simp only [encodedClaim, encoded] at h
      split at h
      · next encoded hEncoded =>
          refine Or.inr ⟨encoded, (Except.ok.inj h).symm, ?_⟩
          have hLength := length_safeClaim hClaim
          rwa [Text.encode?_eq_some.mp hEncoded, Text.ofString, List.length_map] at hLength
      · cases h

theorem evidenceLabels_formed (parsed : ParsedSkill) (independentStaticScan : Bool) :
    evidenceLabels parsed independentStaticScan ≠ [] ∧ (evidenceLabels parsed independentStaticScan).Nodup ∧
      ∀ label ∈ evidenceLabels parsed independentStaticScan, label ∈ allowedLabels := by
  unfold evidenceLabels
  cases parsed.structureValid <;> cases independentStaticScan <;> simp [allowedLabels]

/-- The id of a sealed receipt. -/
theorem matchesReceiptId_seal (digest : Digest) :
    matchesReceiptId ("cpr_" ++ String.ofList (digest.hexdigest.toList.take 24)) = true := by
  have hText : ("cpr_" ++ String.ofList (digest.hexdigest.toList.take 24)).toList =
      "cpr_".toList ++ digest.hexdigest.toList.take 24 := by
    simp [String.toList_append]
  have hLength : "cpr_".toList.length = 4 := by decide
  have hHex : ∀ c ∈ digest.hexdigest.toList.take 24, Bytes.isHexDigit c = true := by
    intro c hC
    refine Bytes.hex_isHexDigit digest.bytes c ?_
    simpa [Digest.hexdigest] using List.mem_of_mem_take hC
  rw [matchesReceiptId, hText, Bool.and_eq_true, isLowerHex, Bool.and_eq_true, decide_eq_true_eq, List.all_eq_true]
  rw [List.drop_append_of_le_length (by omega), List.drop_of_length_le (by omega), List.nil_append]
  refine ⟨by simp, ?_, hHex⟩
  rw [List.length_take, digest.hexdigest_length]
  rfl

theorem matchesSha256_hexdigest (digest : Digest) : matchesSha256 digest.hexdigest = true := by
  rw [matchesSha256, isLowerHex, Bool.and_eq_true, decide_eq_true_eq, List.all_eq_true]
  refine ⟨digest.hexdigest_length, ?_⟩
  intro c hC
  exact Bytes.hex_isHexDigit digest.bytes c (by simpa [Digest.hexdigest] using hC)

theorem matchesCommitId_of_matchesCommit {value : String} (h : matchesCommit value = true) :
    matchesCommitId value = true := by
  simp only [matchesCommit, matchesCommitId, isLowerHex, Bool.and_eq_true, Bool.or_eq_true, decide_eq_true_eq] at h ⊢
  tauto

/-- The name of a skill: what it claims, or the name of its directory. -/
theorem skillName_of_claim {value : Value} {name : Json} {rootName : String}
    (hName : encodedClaim (safeClaim value 64) = .ok name) (hRoot : rootName ≠ "") :
    ∃ skill, (if isTruthy name = true then Except.ok name else .ok (.str rootName) : Except Raised Json) = .ok (.str skill) ∧
      skill ≠ "" ∧ (skill.toList.length ≤ 200 ↔ (isTruthy name = false → rootName.toList.length ≤ 200)) := by
  rcases encodedClaim_eq_ok hName with rfl | ⟨text, rfl, hLength⟩
  · exact ⟨rootName, rfl, hRoot, by simp [isTruthy]⟩
  · by_cases hText : text = ""
    · subst hText
      exact ⟨rootName, rfl, hRoot, by simp [isTruthy]⟩
    · have hTruthy : isTruthy (.str text) = true := by simp [isTruthy, hText]
      refine ⟨text, by rw [if_pos hTruthy], hText, ?_⟩
      rw [hTruthy]
      simp only [Bool.true_eq_false, false_implies, iff_true]
      omega

/-- What the index takes from a receipt, by the parts that the receipt is made of. -/
structure Quotes (receipt : Json) (digest : Digest) (claimed : Json) (snapshot : Snapshot) (provenance : ProvenanceEvidence)
    (labels : List String) (issuedAt expiresAt : String) : Prop where
  receiptId : item receipt "receipt_id" = .ok (.str ("cpr_" ++ String.ofList (digest.hexdigest.toList.take 24)))
  name : valueAt receipt ["artifact", "claims_untrusted", "name"] = .ok claimed
  rootDirectory : valueAt receipt ["artifact", "root_directory"] = .ok (.str snapshot.rootName)
  skillName : skillNameOf receipt = if isTruthy claimed = true then .ok claimed else .ok (.str snapshot.rootName)
  artifactSha256 : valueAt receipt ["artifact", "digest", "sha256"] = .ok (.str snapshot.directorySha256)
  sourceRepository : valueAt receipt ["provenance", "source_repository"] = .ok (.str provenance.repositoryUrl)
  sourceCommit : valueAt receipt ["provenance", "source_commit"] = .ok (.str provenance.commit)
  artifactPath : valueAt receipt ["provenance", "artifact_path"] = .ok (.str provenance.artifactPath)
  evidenceLabels : item receipt "evidence_labels" = .ok (.arr (labels.map Json.str))
  issuedAt : valueAt receipt ["validity", "generated_at"] = .ok (.str issuedAt)
  expiresAt : valueAt receipt ["validity", "expires_at"] = .ok (.str expiresAt)

theorem quotes_of_core {inspected : Inspected} {timestamp expiresAt : Int} {provenance : ProvenanceEvidence}
    {independentStaticScan : Bool} {core : List (String × Json)}
    (h : receiptCore t lib runtime limits inspected timestamp expiresAt (some provenance) independentStaticScan = .ok core) :
    ∃ digest name, encodedClaim (safeClaim (inspected.parsed.metadata.get "name") 64) = .ok name ∧
      Quotes (sealReceipt t.toPlatform core) digest name inspected.snapshot provenance
        (evidenceLabels inspected.parsed independentStaticScan) (t.timestamp timestamp) (t.timestamp expiresAt) := by
  simp only [receiptCore, Except.bind_eq_ok_iff, Except.pure_eq_ok_iff] at h
  obtain ⟨artifact, hArtifact, formatValidation, -, license, -, staticAnalysis, -, rfl⟩ := h
  simp only [artifactJson, claimsJson, Except.bind_eq_ok_iff, Except.pure_eq_ok_iff] at hArtifact
  obtain ⟨claims, ⟨name, hName, description, -, compatibility, -, allowedTools, -, rfl⟩, rfl⟩ := hArtifact
  exact ⟨_, name, hName, rfl, rfl, rfl, rfl, rfl, rfl, rfl, rfl, rfl, rfl, rfl⟩

/-- The receipt of a checkout has an entry, under any owner, and the entry is formed. -/
theorem formed_of_receipt {checkout : Checkout} {generatedAt : Option String} {expiresInDays : Int}
    {independentStaticScan : Bool} {receipt : Json}
    (h : inspectGitSkill t lib urls runtime limits clock checkout generatedAt expiresInDays independentStaticScan =
      .ok receipt) (owner : String) :
    ∃ entry, entry.repositoryOwner = owner ∧ Agrees receipt entry ∧ entry.Formed ∧
      (entry.Short ↔ ShortTexts receipt) := by
  obtain ⟨inspected, timestamp, expiresAt, provenance, core, accepted, hCore, hReceipt, hCommit, hUrl, hPath⟩ :=
    inspectGitSkill_eq_ok h
  obtain ⟨digest, name, hName, quotes⟩ := quotes_of_core hCore
  rw [← hReceipt] at quotes
  obtain ⟨skill, hSkill, hSome, hShort⟩ := skillName_of_claim hName accepted.rootName.1
  obtain ⟨hLabels, hDistinct, hAllowed⟩ := evidenceLabels_formed inspected.parsed independentStaticScan
  refine ⟨{ receiptId := "cpr_" ++ String.ofList (digest.hexdigest.toList.take 24), repositoryOwner := owner
            skillName := skill, sourceRepository := provenance.repositoryUrl, sourceCommit := provenance.commit
            artifactPath := provenance.artifactPath, artifactSha256 := inspected.snapshot.directorySha256
            evidenceLabels := evidenceLabels inspected.parsed independentStaticScan
            issuedAt := .str (t.timestamp timestamp), expiresAt := .str (t.timestamp expiresAt) }, rfl, ?_, ?_, ?_⟩
  · exact ⟨valueAt_one.mpr quotes.receiptId, quotes.artifactSha256, quotes.sourceRepository, quotes.sourceCommit,
      quotes.artifactPath, valueAt_one.mpr quotes.evidenceLabels, quotes.issuedAt, quotes.expiresAt,
      quotes.skillName.trans hSkill⟩
  · refine ⟨matchesReceiptId_seal _, hSome, hUrl, matchesCommitId_of_matchesCommit hCommit, hPath, ?_,
      hLabels, hDistinct, hAllowed⟩
    rw [accepted.directory]
    exact matchesSha256_hexdigest _
  · constructor
    · rintro ⟨hSkillShort, hRepositoryShort, hPathShort⟩
      refine ⟨?_, ?_, ?_⟩
      · intro found directory hFound hFalse hDirectory
        obtain rfl := Except.ok.inj (quotes.name.symm.trans hFound)
        obtain rfl := Json.str.inj (Except.ok.inj (quotes.rootDirectory.symm.trans hDirectory))
        exact hShort.mp hSkillShort hFalse
      · intro url hFound
        obtain rfl := Json.str.inj (Except.ok.inj (quotes.sourceRepository.symm.trans hFound))
        exact hRepositoryShort
      · intro path hFound
        obtain rfl := Json.str.inj (Except.ok.inj (quotes.artifactPath.symm.trans hFound))
        exact hPathShort
    · rintro ⟨hDirectory, hRepository, hArtifactPath⟩
      refine ⟨hShort.mpr fun hFalse => ?_, hRepository _ quotes.sourceRepository, hArtifactPath _ quotes.artifactPath⟩
      exact hDirectory name _ quotes.name hFalse quotes.rootDirectory

/-- The entry that is drafted is the one that agrees with the receipt. -/
theorem draftEntry_of_agrees {source : Source} {receipt : Json} {entry : Entry} (agrees : Agrees receipt entry)
    (hOwner : entry.repositoryOwner = source.repositoryOwner) : draftEntry source receipt = .ok entry.json := by
  obtain ⟨artifact, digest, provenance, validity, hId, hArtifact, hDigest, hSha, hProvenance, hRepository, hCommit,
    hPath, hLabels, hValidity, hIssued, hExpires⟩ := agrees.items
  simp only [draftEntry, hId, agrees.skillName, hProvenance, hRepository, hCommit, hPath, hArtifact, hDigest, hSha, hLabels,
    hValidity, hIssued, hExpires, ← hOwner, bind, Except.bind]
  rfl

end

end Catalog

end VouchSpec
