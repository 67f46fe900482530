import VouchSpec.Catalog.Builder
import VouchSpec.Lifecycle.Canonical

/-! The entries of a signed index beside the receipts that were signed for them, as
the issuer compares them and as the server does. -/

namespace VouchSpec

namespace Catalog

open Signing Lifecycle

/-- Every field of an entry that the server compares is the receipt's. -/
structure Agrees (receipt : Json) (entry : Entry) : Prop where
  receiptId : valueAt receipt ["receipt_id"] = .ok (.str entry.receiptId)
  artifactSha256 : valueAt receipt ["artifact", "digest", "sha256"] = .ok (.str entry.artifactSha256)
  sourceRepository : valueAt receipt ["provenance", "source_repository"] = .ok (.str entry.sourceRepository)
  sourceCommit : valueAt receipt ["provenance", "source_commit"] = .ok (.str entry.sourceCommit)
  artifactPath : valueAt receipt ["provenance", "artifact_path"] = .ok (.str entry.artifactPath)
  evidenceLabels : valueAt receipt ["evidence_labels"] = .ok (.arr (entry.evidenceLabels.map Json.str))
  issuedAt : valueAt receipt ["validity", "generated_at"] = .ok entry.issuedAt
  expiresAt : valueAt receipt ["validity", "expires_at"] = .ok entry.expiresAt
  skillName : skillNameOf receipt = .ok (.str entry.skillName)

/-- The fields that the server compares and the issuer does not. -/
structure UncheckedAgrees (receipt : Json) (entry : Entry) : Prop where
  sourceRepository : valueAt receipt ["provenance", "source_repository"] = .ok (.str entry.sourceRepository)
  evidenceLabels : valueAt receipt ["evidence_labels"] = .ok (.arr (entry.evidenceLabels.map Json.str))
  issuedAt : valueAt receipt ["validity", "generated_at"] = .ok entry.issuedAt
  expiresAt : valueAt receipt ["validity", "expires_at"] = .ok entry.expiresAt
  skillName : skillNameOf receipt = .ok (.str entry.skillName)

section
variable {receipt : Json} {entry : Entry}

/-- A comparison that ends a chain of them. -/
theorem ite_return_eq_ok {found expected : Json} {rest : Except Raised Bool} :
    (if found ≠ expected then (pure false : Except Raised Bool) else rest) = .ok true ↔
      found = expected ∧ rest = .ok true := by
  by_cases hSame : found = expected <;> simp [hSame]

theorem valueAt_two {value inner result : Json} {name next : String} (hInner : item value name = .ok inner)
    (hResult : item inner next = .ok result) : valueAt value [name, next] = .ok result := by
  simp only [valueAt_cons, valueAt_one]
  exact ⟨inner, hInner, hResult⟩

/-- The members of a receipt on the way to the fields of its entry. -/
theorem Agrees.items (agrees : Agrees receipt entry) : ∃ artifact digest provenance validity,
    item receipt "receipt_id" = .ok (.str entry.receiptId) ∧ item receipt "artifact" = .ok artifact ∧
    item artifact "digest" = .ok digest ∧ item digest "sha256" = .ok (.str entry.artifactSha256) ∧
    item receipt "provenance" = .ok provenance ∧
    item provenance "source_repository" = .ok (.str entry.sourceRepository) ∧
    item provenance "source_commit" = .ok (.str entry.sourceCommit) ∧
    item provenance "artifact_path" = .ok (.str entry.artifactPath) ∧
    item receipt "evidence_labels" = .ok (.arr (entry.evidenceLabels.map Json.str)) ∧
    item receipt "validity" = .ok validity ∧ item validity "generated_at" = .ok entry.issuedAt ∧
    item validity "expires_at" = .ok entry.expiresAt := by
  obtain ⟨hId, hDigest, hRepository, hCommit, hPath, hLabels, hIssued, hExpires, -⟩ := agrees
  simp only [valueAt_one, valueAt_cons] at hId hDigest hRepository hCommit hPath hLabels hIssued hExpires
  obtain ⟨artifact, hArtifact, digest, hDigest, hSha⟩ := hDigest
  obtain ⟨provenance, hProvenance, hRepository⟩ := hRepository
  obtain ⟨_, hSame, hCommit⟩ := hCommit
  obtain rfl := Except.ok.inj (hProvenance.symm.trans hSame)
  obtain ⟨_, hSame, hPath⟩ := hPath
  obtain rfl := Except.ok.inj (hProvenance.symm.trans hSame)
  obtain ⟨validity, hValidity, hIssued⟩ := hIssued
  obtain ⟨_, hSame, hExpires⟩ := hExpires
  obtain rfl := Except.ok.inj (hValidity.symm.trans hSame)
  exact ⟨artifact, digest, provenance, validity, hId, hArtifact, hDigest, hSha, hProvenance, hRepository, hCommit,
    hPath, hLabels, hValidity, hIssued, hExpires⟩

theorem bindingMatches_iff : bindingMatches receipt entry = .ok true ↔ Agrees receipt entry := by
  simp only [bindingMatches, Except.bind_eq_ok_iff, ite_return_eq_ok, Except.pure_eq_ok_iff, decide_eq_true_eq]
  constructor
  · rintro ⟨_, hName, _, hId, rfl, artifact, hArtifact, digest, hDigest, _, hSha, rfl, provenance, hProvenance, _,
      hRepository, rfl, _, hCommit, rfl, _, hPath, rfl, _, hLabels, rfl, validity, hValidity, _, hIssued, rfl, _,
      hExpires, rfl, rfl⟩
    refine ⟨valueAt_one.mpr hId, ?_, valueAt_two hProvenance hRepository, valueAt_two hProvenance hCommit,
      valueAt_two hProvenance hPath, valueAt_one.mpr hLabels, valueAt_two hValidity hIssued,
      valueAt_two hValidity hExpires, hName⟩
    simp only [valueAt_cons, valueAt_one]
    exact ⟨artifact, hArtifact, digest, hDigest, hSha⟩
  · intro agrees
    obtain ⟨artifact, digest, provenance, validity, hId, hArtifact, hDigest, hSha, hProvenance, hRepository, hCommit,
      hPath, hLabels, hValidity, hIssued, hExpires⟩ := agrees.items
    exact ⟨_, agrees.skillName, _, hId, rfl, artifact, hArtifact, digest, hDigest, _, hSha, rfl, provenance, hProvenance, _,
      hRepository, rfl, _, hCommit, rfl, _, hPath, rfl, _, hLabels, rfl, validity, hValidity, _, hIssued, rfl, _,
      hExpires, rfl, rfl⟩

/-- What the issuer compares leaves five fields. -/
theorem entry_agrees_iff (hMatches : draftMatches receipt entry = .ok true) :
    Agrees receipt entry ↔ UncheckedAgrees receipt entry := by
  simp only [draftMatches, Except.bind_eq_ok_iff, ite_return_eq_ok, Except.pure_eq_ok_iff, decide_eq_true_eq] at hMatches
  obtain ⟨_, hId, rfl, artifact, hArtifact, digest, hDigest, _, hSha, rfl, provenance, hProvenance, _, hCommit, rfl,
    other, hOther, _, hPath, rfl⟩ := hMatches
  constructor
  · rintro ⟨-, -, hRepository, -, -, hLabels, hIssued, hExpires, hName⟩
    exact ⟨hRepository, hLabels, hIssued, hExpires, hName⟩
  · rintro ⟨hRepository, hLabels, hIssued, hExpires, hName⟩
    refine ⟨valueAt_one.mpr hId, ?_, hRepository, valueAt_two hProvenance hCommit, valueAt_two hOther hPath,
      hLabels, hIssued, hExpires, hName⟩
    simp only [valueAt_cons, valueAt_one]
    exact ⟨artifact, hArtifact, digest, hDigest, hSha⟩

end

section
variable {Key : Type} {t : Toolkit} {scheme : Ed25519 Key} {schema : Signing.Schema}

theorem verifyReceiptEnvelope_sorted {jwk : Json} {depth : Nat} (hPlain : jwk.Plain depth) (envelope : Bytes) :
    verifyReceiptEnvelope t scheme schema envelope jwk.sorted = verifyReceiptEnvelope t scheme schema envelope jwk := by
  simp only [verifyReceiptEnvelope, verifyDsseEnvelope_sorted t scheme hPlain]

/-- The envelope of a draft, on its line, is the draft under the issuer's key. -/
theorem signDraft_eq_ok (hCorrect : scheme.Correct) {drafts : Drafts} {issuerKey : Key} {entry : Entry} {file : Bytes}
    (hSigned : signDraft t scheme schema drafts issuerKey entry = .ok file) :
    ∃ payload receipt, drafts.receipt? entry.receiptId = some payload ∧ t.loads payload = some receipt ∧
      draftMatches receipt entry = .ok true ∧
      verifyReceiptEnvelope t scheme schema file (publicJwk scheme issuerKey) = .ok (receipt, payload) ∧
      1 ≤ file.length ∧ file.length ≤ 2000000 := by
  simp only [signDraft, Except.bind_eq_ok_iff, require_eq_ok, exists_const, Except.pure_eq_ok_iff, readBytes,
    Toolkit.strictJson, Except.ofOption_eq_ok_iff, Prod.exists, signReceiptBytes] at hSigned
  obtain ⟨payload, hPayload, receipt, hReceipt, hIntegrity, same, hSame, rfl, envelope, ⟨-, -, -, hEnvelope⟩, verified,
    image, hVerified, _, -, ⟨hExact, -⟩, rfl⟩ := hSigned
  rw [hExact] at hVerified
  have hSchema : schema receipt = true := by
    simp only [verifyReceiptEnvelope, readReceipt, Toolkit.strictJson, Except.bind_eq_ok_iff, require_eq_ok,
      exists_const, Except.pure_eq_ok_iff, Except.ofOption_eq_ok_iff, Prod.mk.injEq] at hVerified
    obtain ⟨_, -, _, ⟨found, hFound, -, rfl⟩, hSchema, rfl, rfl⟩ := hVerified
    obtain rfl := Option.some.inj (hReceipt.symm.trans hFound)
    exact hSchema
  have hOpened : verifyDsseEnvelope t scheme (jsonLine envelope) receiptPayloadType (publicJwk scheme issuerKey)
      maxReceiptBytes = .ok payload :=
    (verify_signed_iff t hCorrect .receipt _ _ _ hEnvelope).mpr (Or.inl (by decide))
  have hStrict : t.strictJson payload "invalid_receipt" = .ok receipt := by
    rw [Toolkit.strictJson, hReceipt]
    rfl
  have hLength := jsonLine_length (Profile.safe .receipt) hEnvelope
  have hLimit : payload.length ≤ 1000000 := (signDssePayload_eq_ok.mp hEnvelope).1.2
  have hType : Profile.receipt.payloadType.toList.length = 52 := by decide
  refine ⟨payload, receipt, hPayload, hReceipt, hSame, ?_, by omega, by omega⟩
  simp only [verifyReceiptEnvelope, readReceipt, hOpened, hStrict, require_of hIntegrity, require_of hSchema, bind,
    Except.bind, pure, Except.pure]

theorem signDrafts_eq_ok {drafts : Drafts} {issuerKey : Key} {entries : List Entry} {files : List (String × Bytes)}
    (hSigned : signDrafts t scheme schema drafts issuerKey entries = .ok files) :
    (∀ file ∈ files, ∃ entry ∈ entries, file.1 = entry.receiptId ∧
      signDraft t scheme schema drafts issuerKey entry = .ok file.2) ∧
    ∀ entry ∈ entries, entry.receiptId ∈ files.map Prod.fst ∧
      ∃ file, signDraft t scheme schema drafts issuerKey entry = .ok file := by
  induction entries generalizing files with
  | nil =>
      obtain rfl : [] = files := Except.ok.inj hSigned
      simp
  | cons entry rest ih =>
      simp only [signDrafts, Except.bind_eq_ok_iff, Except.pure_eq_ok_iff] at hSigned
      obtain ⟨file, hFile, files, hFiles, rfl⟩ := hSigned
      obtain ⟨hFrom, hEach⟩ := ih hFiles
      constructor
      · intro found hFound
        rcases List.mem_cons.mp hFound with rfl | hRest
        · exact ⟨entry, List.mem_cons_self, rfl, hFile⟩
        · obtain ⟨other, hOther, hBoth⟩ := hFrom found hRest
          exact ⟨other, List.mem_cons_of_mem _ hOther, hBoth⟩
      · intro other hOther
        rw [List.map_cons]
        rcases List.mem_cons.mp hOther with rfl | hRest
        · exact ⟨List.mem_cons_self, file, hFile⟩
        · exact ⟨List.mem_cons_of_mem _ (hEach other hRest).1, (hEach other hRest).2⟩

/-- What a call that returns has read and written. -/
theorem signCatalogDrafts_eq_ok {drafts : Drafts} {outputExists : Bool} {issuerKey : Key} {directory : Directory}
    {report : SigningReport}
    (hReturned : signCatalogDrafts t scheme schema drafts outputExists issuerKey = .ok (directory, report)) :
    ∃ bytes value index, directory.index = some bytes ∧ 1 ≤ bytes.length ∧ bytes.length ≤ 5000000 ∧
      t.strictJson bytes "invalid_catalog" = .ok value ∧ validateCatalogIndex value = .ok index ∧
      signDrafts t scheme schema drafts issuerKey index.entries = .ok directory.receipts := by
  simp only [signCatalogDrafts, Except.bind_eq_ok_iff, require_eq_ok, exists_const, Except.pure_eq_ok_iff,
    Prod.mk.injEq] at hReturned
  obtain ⟨-, bytes, -, value, hValue, index, hIndex, -, receipts, hReceipts, -, envelope, hEnvelope, _, -, _, -, rfl,
    -⟩ := hReturned
  obtain ⟨⟨hSome, hLimit⟩, -⟩ := signDssePayload_eq_ok.mp hEnvelope
  exact ⟨bytes, value, index, rfl, List.length_pos_iff.mpr hSome, hLimit, hValue, hIndex, hReceipts⟩

/-- Every entry has an envelope in the signed catalog, of a draft that the issuer
has compared with it. -/
theorem signed_entry (hCorrect : scheme.Correct) {drafts : Drafts} {issuerKey : Key} {entries : List Entry}
    {directory : Directory} (hSigned : signDrafts t scheme schema drafts issuerKey entries = .ok directory.receipts)
    {entry : Entry} (hEntry : entry ∈ entries) :
    ∃ bytes payload receipt, directory.receipt? entry.receiptId = some bytes ∧
      drafts.receipt? entry.receiptId = some payload ∧ t.loads payload = some receipt ∧
      draftMatches receipt entry = .ok true ∧
      verifyReceiptEnvelope t scheme schema bytes (publicJwk scheme issuerKey) = .ok (receipt, payload) ∧
      1 ≤ bytes.length ∧ bytes.length ≤ 2000000 := by
  obtain ⟨hFrom, hEach⟩ := signDrafts_eq_ok hSigned
  obtain ⟨hListed, own, hOwn⟩ := hEach entry hEntry
  obtain ⟨payload, receipt, hPayload, hReceipt, hMatches, -⟩ := signDraft_eq_ok hCorrect hOwn
  -- The first file under the id may be of another entry with it, but is of the same draft.
  have hFound : ∃ file, directory.receipts.find? (fun file => file.1 = entry.receiptId) = some file := by
    obtain ⟨file, hFile, hName⟩ := List.mem_map.mp hListed
    exact Option.isSome_iff_exists.mp (List.find?_isSome.mpr ⟨file, hFile, decide_eq_true hName⟩)
  obtain ⟨file, hFile⟩ := hFound
  obtain ⟨other, -, hName, hOther⟩ := hFrom file (List.mem_of_find?_eq_some hFile)
  have hSame : other.receiptId = entry.receiptId := by
    rw [← hName]
    simpa using List.find?_some hFile
  obtain ⟨image, found, hImage, hFoundReceipt, -, hVerified, hSize⟩ := signDraft_eq_ok hCorrect hOther
  rw [hSame] at hImage
  obtain rfl := Option.some.inj (hPayload.symm.trans hImage)
  obtain rfl := Option.some.inj (hReceipt.symm.trans hFoundReceipt)
  refine ⟨file.2, payload, receipt, ?_, hPayload, hReceipt, hMatches, hVerified, hSize⟩
  rw [Directory.receipt?, hFile]
  rfl

theorem readEntries_ids {seen : List String} {items : List Json} {entries : List Entry}
    (hRead : readEntries seen items = .ok entries) : ∀ entry ∈ entries, matchesReceiptId entry.receiptId = true := by
  induction items generalizing seen entries with
  | nil =>
      obtain rfl : [] = entries := Except.ok.inj hRead
      simp
  | cons item rest ih =>
      simp only [readEntries, Except.bind_eq_ok_iff, Except.pure_eq_ok_iff] at hRead
      obtain ⟨first, hFirst, others, hOthers, rfl⟩ := hRead
      intro entry hEntry
      rcases List.mem_cons.mp hEntry with rfl | hRest
      · simp only [readEntry, validateReceiptId, Except.bind_eq_ok_iff, require_eq_ok, exists_const,
          Except.pure_eq_ok_iff, Except.ofOption_eq_ok_iff] at hFirst
        obtain ⟨-, receiptId, ⟨_, -, hMatches, rfl⟩, -, -, -, -, -, -, -, -, -, -, -, -, -, -, -, -, -, rfl⟩ := hFirst
        exact hMatches
      · exact ih hOthers entry hRest

theorem validateCatalogIndex_ids {value : Json} {index : Index} (hIndex : validateCatalogIndex value = .ok index) :
    ∀ entry ∈ index.entries, matchesReceiptId entry.receiptId = true := by
  simp only [validateCatalogIndex, Except.bind_eq_ok_iff, require_eq_ok, exists_const, Except.pure_eq_ok_iff] at hIndex
  obtain ⟨-, -, -, items, -, entries, hEntries, -, rfl⟩ := hIndex
  exact readEntries_ids hEntries

theorem validateReceiptId_of_matches {receiptId : String} (hMatches : matchesReceiptId receiptId = true) :
    validateReceiptId (.str receiptId) = .ok receiptId := by
  simp only [validateReceiptId, Json.str?, Except.ofOption, require_of hMatches, bind, Except.bind, pure, Except.pure]

theorem readItem_of_length {file : Option Bytes} {content : Bytes} {maximum : Nat} (hFile : file = some content)
    (hSome : 1 ≤ content.length) (hLimit : content.length ≤ maximum) : readItem file maximum = .ok content := by
  have hLength : 1 ≤ content.length ∧ content.length ≤ maximum := ⟨hSome, hLimit⟩
  simp only [readItem, readBytes, hFile, Except.ofOption, require_of hLength, bind, Except.bind, pure, Except.pure]

/-- The root's phase leaves the index and the receipts as they are. -/
theorem finalize_keeps {directory after : Directory} {rootKey : Key} {timestamp : Int} {previous : Option Bytes}
    {report : LifecycleReport}
    (hReturned : finalizeCatalogLifecycle t scheme schema directory rootKey timestamp previous = .ok (after, report)) :
    after.index = directory.index ∧ after.receipts = directory.receipts := by
  simp only [finalizeCatalogLifecycle, Except.bind_eq_ok_iff, require_eq_ok, exists_const, Except.pure_eq_ok_iff,
    Prod.mk.injEq] at hReturned
  obtain ⟨-, _, -, _, -, _, -, _, -, _, -, -, _, -, _, -, _, -, _, -, _, -, -, _, -, -, -, rfl, -⟩ := hReturned
  exact ⟨rfl, rfl⟩

/-- The checks of the server, for each entry on its own. -/
theorem checkBindings_iff {directory : Directory} {issuerJwk : Json} {entries : List Entry} :
    checkBindings t scheme schema directory issuerJwk entries = .ok () ↔ ∀ entry ∈ entries, ∃ bytes receipt payload,
      receiptEnvelopeBytes t directory entry.receiptId = .ok bytes ∧
      verifyReceiptEnvelope t scheme schema bytes issuerJwk = .ok (receipt, payload) ∧ Agrees receipt entry := by
  induction entries with
  | nil => simp [checkBindings]
  | cons entry rest ih =>
      simp only [checkBindings, Except.bind_eq_ok_iff, require_eq_ok, exists_const, Prod.exists, ih,
        List.forall_mem_cons]
      constructor
      · rintro ⟨bytes, hBytes, receipt, payload, hVerified, same, hSame, rfl, hRest⟩
        exact ⟨⟨bytes, receipt, payload, hBytes, hVerified, bindingMatches_iff.mp hSame⟩, hRest⟩
      · rintro ⟨⟨bytes, receipt, payload, hBytes, hVerified, agrees⟩, hRest⟩
        exact ⟨bytes, hBytes, receipt, payload, hVerified, true, bindingMatches_iff.mpr agrees, rfl, hRest⟩

/-- An envelope is read alike with and without the line feed after it. -/
theorem verifyDsseEnvelope_line {payloadType : String} {payload : Bytes} {key : Key} {maximum : Nat} {envelope : Json}
    (hSigned : signDssePayload t scheme payloadType payload key maximum = .ok envelope)
    (hFits : (jsonLine envelope).length ≤ maxEnvelopeBytes) (expected : String) (jwk : Json) (limit : Nat) :
    verifyDsseEnvelope t scheme (deterministicJson envelope) expected jwk limit =
      verifyDsseEnvelope t scheme (jsonLine envelope) expected jwk limit := by
  have hPlain : envelope.Plain readableDepth := by
    obtain ⟨-, message, -, rfl⟩ := signDssePayload_eq_ok.mp hSigned
    simp [readableDepth]
  have hShorter : (deterministicJson envelope).length ≤ (jsonLine envelope).length := by
    rw [jsonLine, List.length_append]
    exact Nat.le_add_right _ _
  have hLine : jsonLine envelope ≠ [] := List.append_ne_nil_of_right_ne_nil _ (by simp)
  have hOpen : openEnvelope t (deterministicJson envelope) expected = openEnvelope t (jsonLine envelope) expected := by
    rw [openEnvelope, openEnvelope, require_of ⟨deterministicJson_ne_nil envelope, hShorter.trans hFits⟩,
      require_of ⟨hLine, hFits⟩, t.strictJson_jsonLine hPlain, t.strictJson_deterministicJson hPlain]
  rw [verifyDsseEnvelope, verifyDsseEnvelope, hOpen]

/-- An intact draft that has the fields of its entry is signed. -/
theorem signDraft_returns (hCorrect : scheme.Correct) {drafts : Drafts} {issuerKey : Key} {entry : Entry} {value : Json}
    (hFile : drafts.receipt? entry.receiptId = some (deterministicJson value)) (hPlain : value.Plain readableDepth)
    (hSize : (deterministicJson value).length ≤ maxReceiptBytes)
    (hIntact : isDict value.sorted = true ∧ verifyReceiptIntegrity t value.sorted = true)
    (hMatches : draftMatches value.sorted entry = .ok true) (hSchema : schema value.sorted = true) :
    ∃ file, signDraft t scheme schema drafts issuerKey entry = .ok file := by
  have hStrict := t.strictJson_deterministicJson hPlain
  obtain ⟨envelope, hSigned⟩ := signDssePayload_profile t scheme .receipt (deterministicJson value)
    (deterministicJson_ne_nil value) hSize issuerKey
  have hFits : (jsonLine envelope).length ≤ maxEnvelopeBytes := by
    have hLength := jsonLine_length Profile.receipt.safe hSigned
    have hType : Profile.receipt.payloadType.toList.length = 52 := by decide
    rw [maxReceiptBytes] at hSize
    rw [maxEnvelopeBytes]
    omega
  have hOpened : verifyDsseEnvelope t scheme (deterministicJson envelope) receiptPayloadType (publicJwk scheme issuerKey)
      maxReceiptBytes = .ok (deterministicJson value) :=
    (verifyDsseEnvelope_line hSigned hFits _ _ _).trans
      ((verify_signed_iff t hCorrect .receipt _ _ _ hSigned).mpr (Or.inl (by decide)))
  have hVerified : verifyReceiptEnvelope t scheme schema (deterministicJson envelope) (publicJwk scheme issuerKey) =
      .ok (value.sorted, deterministicJson value) := by
    simp only [verifyReceiptEnvelope, readReceipt, Except.bind_eq_ok_iff, require_eq_ok, exists_const,
      Except.pure_eq_ok_iff]
    exact ⟨_, hOpened, _, ⟨_, hStrict _, hIntact, rfl⟩, hSchema, rfl⟩
  have hId : item value.sorted "receipt_id" = .ok (.str entry.receiptId) := by
    simp only [draftMatches, Except.bind_eq_ok_iff, ite_return_eq_ok] at hMatches
    obtain ⟨_, hId, rfl, -⟩ := hMatches
    exact hId
  refine ⟨jsonLine envelope, ?_⟩
  simp only [signDraft, signReceiptBytes, readReceipt, Except.bind_eq_ok_iff, require_eq_ok, exists_const,
    Except.pure_eq_ok_iff, readBytes, Except.ofOption_eq_ok_iff, Prod.exists]
  exact ⟨_, hFile, _, hStrict _, hIntact, true, hMatches, rfl, _, ⟨⟨deterministicJson_ne_nil value, hSize⟩, _,
    ⟨_, hStrict _, hIntact, rfl⟩, hSigned⟩, _, _, hVerified, _, hId, ⟨rfl, rfl⟩, rfl⟩

/-- A draft catalog of one entry is signed when the draft of the entry is. -/
theorem signCatalogDrafts_single {drafts : Drafts} {issuerKey : Key} {entry : Entry} {value : Json} {count : Json}
    {report : Bytes} (hIndex : drafts.index = some (deterministicJson value)) (hPlain : value.Plain readableDepth)
    (hSize : (deterministicJson value).length ≤ 5000000)
    (hRead : validateCatalogIndex value.sorted = .ok { entryCount := count, entries := [entry] })
    (hNames : drafts.receipts.map Prod.fst = [entry.receiptId]) (hCount : equalsCount count 1 = true)
    (hReport : drafts.buildReport = some report)
    (hDraft : ∃ file, signDraft t scheme schema drafts issuerKey entry = .ok file) :
    ∃ directory report, signCatalogDrafts t scheme schema drafts false issuerKey = .ok (directory, report) ∧
      directory.index = some (deterministicJson value) := by
  obtain ⟨file, hFile⟩ := hDraft
  have hStrict := t.strictJson_deterministicJson hPlain "invalid_catalog"
  obtain ⟨envelope, hSigned⟩ := signDssePayload_profile t scheme .catalogIndex (deterministicJson value)
    (deterministicJson_ne_nil value) hSize issuerKey
  have hLength : drafts.receipts.length = 1 := by
    have hMap := congrArg List.length hNames
    rwa [List.length_map] at hMap
  have hDrafts : signDrafts t scheme schema drafts issuerKey [entry] = .ok [(entry.receiptId, file)] := by
    simp only [signDrafts, hFile, bind, Except.bind, pure, Except.pure]
  let directory : Directory :=
    { index := some (deterministicJson value), indexEnvelope := some (jsonLine envelope), buildReport := some report
      receipts := [(entry.receiptId, file)], issuerJwk := some (jsonLine (publicJwk scheme issuerKey)) }
  refine ⟨directory, { entryCount := count, issuerKeyid := keyidOf t scheme issuerKey }, ?_, rfl⟩
  simp only [signCatalogDrafts, Except.bind_eq_ok_iff, require_eq_ok, exists_const, Except.pure_eq_ok_iff, readBytes,
    Except.ofOption_eq_ok_iff, hNames, hLength]
  exact ⟨trivial, _, hIndex, _, hStrict, _, hRead, hCount, _, hDrafts, ⟨by simp, by simp⟩, _, hSigned, _, hReport, _,
    jwkThumbprint_publicJwk t scheme issuerKey, rfl⟩

theorem index?_of_read {directory : Directory} {bytes : Bytes} {value : Json} {index : Index}
    (hBytes : directory.index = some bytes) (hStrict : t.strictJson bytes "invalid_catalog" = .ok value)
    (hIndex : validateCatalogIndex value = .ok index) : directory.index? t = some index := by
  have hLoads := Except.ofOption_eq_ok_iff.mp hStrict
  simp only [Directory.index?, hBytes, bind, Option.bind, hLoads, hIndex, Except.toOption]

/-- The receipt that was signed for an entry has every field that the server compares. -/
def SignedAgrees (t : Toolkit) (scheme : Ed25519 Key) (schema : Signing.Schema) (directory : Directory) (issuerKey : Key)
    (entry : Entry) : Prop :=
  ∃ bytes receipt payload, directory.receipt? entry.receiptId = some bytes ∧
    verifyReceiptEnvelope t scheme schema bytes (publicJwk scheme issuerKey) = .ok (receipt, payload) ∧
    Agrees receipt entry

/-- The draft of an entry has the fields that the issuer does not compare. -/
def DraftAgrees (t : Toolkit) (drafts : Drafts) (entry : Entry) : Prop :=
  ∀ payload receipt, drafts.receipt? entry.receiptId = some payload → t.loads payload = some receipt →
    UncheckedAgrees receipt entry

/-- The signed index agrees with the signed receipts exactly when the drafts have the
fields that the issuer does not compare, and the finalized catalog then passes the
server's checks, and only then. -/
theorem bindings_iff (t : Toolkit) (scheme : Ed25519 Key) (schema : Signing.Schema) (hCorrect : scheme.Correct)
    (drafts : Drafts) (outputExists : Bool) (issuerKey : Key) (directory : Directory) (report : SigningReport)
    (hReturned : signCatalogDrafts t scheme schema drafts outputExists issuerKey = .ok (directory, report)) :
    ∃ index, directory.index? t = some index ∧
      ((∀ entry ∈ index.entries, SignedAgrees t scheme schema directory issuerKey entry) ↔
        ∀ entry ∈ index.entries, DraftAgrees t drafts entry) ∧
      ∀ rootKey timestamp previous finalized lifecycleReport,
        finalizeCatalogLifecycle t scheme schema directory rootKey timestamp previous =
          .ok (finalized, lifecycleReport) →
        (checkBindings t scheme schema finalized (publicJwk scheme issuerKey).sorted index.entries = .ok () ↔
          ∀ entry ∈ index.entries, DraftAgrees t drafts entry) := by
  obtain ⟨bytes, value, index, hBytes, hSome, hLimit, hValue, hIndex, hSigned⟩ := signCatalogDrafts_eq_ok hReturned
  have hEach : ∀ entry ∈ index.entries, ∀ bytes receipt payload, directory.receipt? entry.receiptId = some bytes →
      verifyReceiptEnvelope t scheme schema bytes (publicJwk scheme issuerKey) = .ok (receipt, payload) →
      (Agrees receipt entry ↔ DraftAgrees t drafts entry) := by
    intro entry hEntry bytes receipt payload hFile hVerified
    obtain ⟨_, draft, found, hFound, hDraft, hReceipt, hMatches, hSame, -⟩ := signed_entry hCorrect hSigned hEntry
    obtain rfl := Option.some.inj (hFile.symm.trans hFound)
    obtain ⟨rfl, rfl⟩ := Prod.mk.inj (Except.ok.inj (hVerified.symm.trans hSame))
    rw [entry_agrees_iff hMatches]
    constructor
    · intro unchecked other image hOther hImage
      obtain rfl := Option.some.inj (hDraft.symm.trans hOther)
      obtain rfl := Option.some.inj (hReceipt.symm.trans hImage)
      exact unchecked
    · exact fun agrees => agrees _ _ hDraft hReceipt
  refine ⟨index, index?_of_read hBytes hValue hIndex, ?_, ?_⟩
  · refine forall₂_congr fun entry hEntry => ?_
    obtain ⟨bytes, payload, receipt, hFile, -, -, -, hVerified, -⟩ := signed_entry hCorrect hSigned hEntry
    rw [← hEach entry hEntry bytes receipt payload hFile hVerified]
    constructor
    · rintro ⟨_, _, _, hOther, hAgain, agrees⟩
      obtain rfl := Option.some.inj (hFile.symm.trans hOther)
      obtain ⟨rfl, rfl⟩ := Prod.mk.inj (Except.ok.inj (hVerified.symm.trans hAgain))
      exact agrees
    · exact fun agrees => ⟨bytes, receipt, payload, hFile, hVerified, agrees⟩
  · intro rootKey timestamp previous finalized lifecycleReport hFinalized
    obtain ⟨hKeptIndex, hKeptReceipts⟩ := finalize_keeps hFinalized
    rw [checkBindings_iff]
    refine forall₂_congr fun entry hEntry => ?_
    obtain ⟨file, payload, receipt, hFile, -, -, -, hVerified, hLong, hShort⟩ := signed_entry hCorrect hSigned hEntry
    have hRead : receiptEnvelopeBytes t finalized entry.receiptId = .ok file := by
      have hListed : ∃ other ∈ index.entries, other.receiptId = entry.receiptId := ⟨entry, hEntry, rfl⟩
      have hId := validateReceiptId_of_matches (validateCatalogIndex_ids hIndex entry hEntry)
      have hKept : finalized.receipt? entry.receiptId = some file := by
        rw [← hFile, Directory.receipt?, hKeptReceipts, Directory.receipt?]
      have hIndexBytes : readItem finalized.index 5000000 = .ok bytes :=
        readItem_of_length (hKeptIndex.trans hBytes) hSome hLimit
      simp only [receiptEnvelopeBytes, hId, hIndexBytes, hValue, hIndex, require_of hListed, bind, Except.bind]
      exact readItem_of_length hKept hLong hShort
    rw [← hEach entry hEntry file receipt payload hFile hVerified]
    simp only [verifyReceiptEnvelope_sorted (plain_publicJwk scheme issuerKey)]
    constructor
    · rintro ⟨_, _, _, hOther, hAgain, agrees⟩
      obtain rfl := Except.ok.inj (hRead.symm.trans hOther)
      obtain ⟨rfl, rfl⟩ := Prod.mk.inj (Except.ok.inj (hVerified.symm.trans hAgain))
      exact agrees
    · exact fun agrees => ⟨file, receipt, payload, hRead, hVerified, agrees⟩

end

namespace Sample

/-- A draft without its seal. -/
def candidate : List (String × Json) :=
  [("integrity_assurance", .str integrityAssurance),
    ("artifact", .obj [("claims_untrusted", .obj [("name", .str "demo")]), ("digest", .obj [("sha256", .str
      "0000000000000000000000000000000000000000000000000000000000000001")]), ("root_directory", .str "demo")]),
    ("provenance", .obj [("source_repository", .str "https://github.com/octo/demo"),
      ("source_commit", .str "0123456789abcdef0123456789abcdef01234567"), ("artifact_path", .str "demo")]),
    ("evidence_labels", .arr [.str "DIGEST_PINNED"]),
    ("validity", .obj [("generated_at", .str "2026-01-01T00:00:00Z"), ("expires_at", .str "2026-02-01T00:00:00Z")])]

/-- The digest of the draft without its seal. -/
def evidenceSha256 : String := "71be0d2d34fe026dafee8bf2d0726eb66a010d062f5ee948d335d670c239d098"

def receiptId : String := "cpr_71be0d2d34fe026dafee8bf2"

def receipt : Json :=
  .obj (candidate ++ [("receipt_id", .str receiptId), ("integrity", .obj [("profile", .str integrityProfile),
    ("deterministic_json_profile", .str deterministicJsonProfile), ("evidence_sha256", .str evidenceSha256),
    ("signature", .obj [("status", .str "external-envelope-required"), ("profile", .str "dsse-v1.0.2-ed25519"),
      ("payload_type", .str receiptPayloadType)])])])

/-- An index whose entry has the name of another skill. -/
def index : Json :=
  .obj [("schema_version", .str catalogSchemaVersion), ("service", .str "VouchSpec"),
    ("stage", .str "A_PUBLIC_ARTIFACT_INDEX"), ("generated_at", .str "2026-01-01T00:00:00Z"), ("entry_count", .int 1),
    ("repository_owner_count", .int 1), ("entries", .arr [.obj [("receipt_id", .str receiptId),
      ("repository_owner", .str "octo"), ("skill_name", .str "other"),
      ("source_repository", .str "https://github.com/octo/demo"),
      ("source_commit", .str "0123456789abcdef0123456789abcdef01234567"), ("artifact_path", .str "demo"),
      ("artifact_sha256", .str "0000000000000000000000000000000000000000000000000000000000000001"),
      ("evidence_labels", .arr [.str "DIGEST_PINNED"]), ("issued_at", .str "2026-01-01T00:00:00Z"),
      ("expires_at", .str "2026-02-01T00:00:00Z")]])]

def entry : Entry where
  receiptId
  repositoryOwner := "octo"
  skillName := "other"
  sourceRepository := "https://github.com/octo/demo"
  sourceCommit := "0123456789abcdef0123456789abcdef01234567"
  artifactPath := "demo"
  artifactSha256 := "0000000000000000000000000000000000000000000000000000000000000001"
  evidenceLabels := ["DIGEST_PINNED"]
  issuedAt := .str "2026-01-01T00:00:00Z"
  expiresAt := .str "2026-02-01T00:00:00Z"

def drafts : Drafts where
  index := some (deterministicJson index)
  buildReport := some []
  receipts := [(receiptId, deterministicJson receipt)]
  distinct := List.nodup_singleton _

theorem receipt_intact : isDict receipt.sorted = true ∧ verifyReceiptIntegrity .standard receipt.sorted = true ∧
    draftMatches receipt.sorted entry = .ok true ∧ skillNameOf receipt.sorted = .ok (.str "demo") := by
  decide +kernel

theorem receipt_length : (deterministicJson receipt).length ≤ 1000000 ∧ (deterministicJson index).length ≤ 5000000 := by
  have hTexts : receipt.sorted.text.length ≤ 2000 ∧ index.sorted.text.length ≤ 2000 := by decide +kernel
  have hReceipt := Bytes.utf8_length_le receipt.sorted.text
  have hIndex := Bytes.utf8_length_le index.sorted.text
  rw [deterministicJson, deterministicJson]
  omega

theorem index_read : validateCatalogIndex index.sorted = .ok { entryCount := .int 1, entries := [entry] } := by
  decide +kernel

theorem plain_receipt : receipt.Plain readableDepth := by
  simp [receipt, candidate, readableDepth]

theorem plain_index : index.Plain readableDepth := by
  have hDigits : 1 < 10 ^ Json.maxDigits := Nat.one_lt_pow (by decide) (by decide)
  simp [index, readableDepth, hDigits]

theorem receipt_drafts : drafts.receipt? entry.receiptId = some (deterministicJson receipt) := by
  simp only [Drafts.receipt?, drafts, entry, List.find?_cons, decide_true, Option.map_some]

theorem signed : ∃ directory report,
    signCatalogDrafts .standard (.keyedDigest .standard) (fun _ => true) drafts false [1] = .ok (directory, report) ∧
      directory.index = some (deterministicJson index) := by
  obtain ⟨hDict, hIntact, hMatches, -⟩ := receipt_intact
  apply signCatalogDrafts_single rfl plain_index receipt_length.2 index_read _ rfl rfl
  · exact signDraft_returns (Ed25519.keyedDigest_correct .standard) receipt_drafts plain_receipt receipt_length.1
      ⟨hDict, hIntact⟩ hMatches rfl
  · simp only [drafts, entry, List.map_cons, List.map_nil]

/-- The draft is not of a skill with the name in the entry. -/
theorem not_draftAgrees : ¬DraftAgrees .standard drafts entry := by
  intro agrees
  have hLoads := Except.ofOption_eq_ok_iff.mp
    (Toolkit.standard.strictJson_deterministicJson plain_receipt "invalid_receipt")
  have hName := (agrees _ _ receipt_drafts hLoads).skillName
  have hDemo := Json.str.inj (Except.ok.inj (receipt_intact.2.2.2.symm.trans hName))
  exact absurd hDemo (by decide)

end Sample

/-- The issuer signs a skill under another's name; the server refuses the catalog. -/
theorem bindings_iff_renamed : ∃ directory report index,
    signCatalogDrafts .standard (.keyedDigest .standard) (fun _ => true) Sample.drafts false [1] = .ok (directory, report) ∧
    directory.index? .standard = some index ∧
    (¬∀ entry ∈ index.entries, SignedAgrees .standard (.keyedDigest .standard) (fun _ => true) directory [1] entry) ∧
    ∀ rootKey timestamp previous finalized lifecycleReport,
      finalizeCatalogLifecycle .standard (.keyedDigest .standard) (fun _ => true) directory rootKey timestamp previous =
        .ok (finalized, lifecycleReport) →
      checkBindings .standard (.keyedDigest .standard) (fun _ => true) finalized
        (publicJwk (.keyedDigest .standard) [1]).sorted index.entries ≠ .ok () := by
  obtain ⟨directory, report, hSigned, hBytes⟩ := Sample.signed
  obtain ⟨index, hIndex, hAgrees, hServer⟩ := bindings_iff .standard (.keyedDigest .standard) (fun _ => true)
    (Ed25519.keyedDigest_correct .standard) Sample.drafts false [1] directory report hSigned
  have hStrict := Toolkit.standard.strictJson_deterministicJson Sample.plain_index "invalid_catalog"
  have hRead := index?_of_read hBytes hStrict Sample.index_read
  have hEntries : index.entries = [Sample.entry] := by
    rw [Option.some.inj (hIndex.symm.trans hRead)]
  have hNot : ¬∀ entry ∈ index.entries, DraftAgrees .standard Sample.drafts entry := by
    rw [hEntries, List.forall_mem_singleton]
    exact Sample.not_draftAgrees
  refine ⟨directory, report, index, hSigned, hIndex, fun hAll => hNot (hAgrees.mp hAll), ?_⟩
  intro rootKey timestamp previous finalized lifecycleReport hFinalized hChecked
  exact hNot ((hServer rootKey timestamp previous finalized lifecycleReport hFinalized).mp hChecked)

end Catalog

end VouchSpec
