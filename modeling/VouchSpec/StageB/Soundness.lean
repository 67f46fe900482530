import VouchSpec.StageB.Gate

/-! What the signing gate has checked when it returns: the envelope that is written holds the
worker's receipt, and the receipt and its report name the frozen source. -/

namespace VouchSpec

namespace StageB

open Inspection Signing

/-- A receipt and its report name a frozen source and each other. -/
structure Bound (t : Toolkit) (frozen : FrozenSource) (receiptBytes : Bytes) (receipt execution : Json) : Prop where
  receiptId : execution.member "receipt_id" = receipt.member "receipt_id"
  receiptDigest : execution.member "receipt_sha256" = .str (t.sha256 receiptBytes).hexdigest
  manifest : execution.member "freeze_manifest_digest" = frozen.manifest.member "manifest_digest"
  artifact : valueAt receipt ["artifact", "digest", "sha256"] = .ok (frozen.manifest.member "artifact_directory_sha256")
  rootDirectory : valueAt receipt ["artifact", "root_directory"] = .ok (.str (frozen.artifactRoot.getLast?.getD ""))
  repository : valueAt receipt ["provenance", "source_repository"] = .ok (frozen.manifest.member "repository_url")
  commit : valueAt receipt ["provenance", "source_commit"] = .ok (frozen.manifest.member "fetched_commit")
  artifactPath : valueAt receipt ["provenance", "artifact_path"] =
    .ok ((frozen.manifest.member "source").member "skill_path")

/-- The digest of the files that are found beside the manifest of a frozen source. -/
def FoundOnDisk (t : Toolkit) (u : Unicode) (directory : FrozenDirectory) (times : CaptureTimes) (frozen : FrozenSource)
    (digest : String) : Prop :=
  ∃ names snapshot, frozen.artifactRoot = directory.root ++ names ∧
    collectSnapshot u .default t.toPlatform frozen.artifactRoot (directory.entryAt names) times = .ok snapshot ∧
    snapshot.directorySha256 = digest

section
variable {Key : Type} {t : Toolkit} {scheme : Ed25519 Key} {schema : Signing.Schema} {u : Unicode} {milliseconds : Int → Int}
  {directory : FrozenDirectory} {times : CaptureTimes} {output : WorkerOutput} {signer : Signer Key}

theorem requireAt_eq_ok {receipt expected : Json} {path : List String} :
    requireAt receipt path expected = .ok () ↔ valueAt receipt path = .ok expected := by
  simp only [requireAt, Except.bind_eq_ok_iff, require_eq_ok]
  constructor
  · rintro ⟨found, hFound, rfl⟩
    exact hFound
  · intro hFound
    exact ⟨expected, hFound, rfl⟩

theorem bound_of_checkBinding {frozen : FrozenSource} {receiptBytes : Bytes} {receipt execution : Json}
    (h : checkBinding t frozen receiptBytes receipt execution = .ok ()) :
    Bound t frozen receiptBytes receipt execution := by
  simp only [checkBinding, Except.bind_eq_ok_iff, require_eq_ok, exists_const] at h
  obtain ⟨⟨hId, hDigest, hManifest⟩, ⟨⟩, hArtifact, ⟨⟩, hRoot, ⟨⟩, hRepository, ⟨⟩, hCommit, ⟨⟩, hPath, -⟩ := h
  exact ⟨hId, hDigest, hManifest, requireAt_eq_ok.mp hArtifact, requireAt_eq_ok.mp hRoot, requireAt_eq_ok.mp hRepository,
    requireAt_eq_ok.mp hCommit, requireAt_eq_ok.mp hPath⟩

/-- The digest in the manifest of a verified source is that of the files beside it. -/
theorem found_of_verify {limits : ScanLimits} {frozen : FrozenSource}
    (h : verifyFrozenSource t u limits directory times = .ok frozen) :
    ∃ names snapshot, frozen.artifactRoot = directory.root ++ names ∧
      collectSnapshot u limits t.toPlatform frozen.artifactRoot (directory.entryAt names) times = .ok snapshot ∧
      frozen.manifest.member "artifact_directory_sha256" = .str snapshot.directorySha256 := by
  simp only [verifyFrozenSource, checkInventory, Except.bind_eq_ok_iff, require_eq_ok, exists_const,
    Except.pure_eq_ok_iff] at h
  obtain ⟨text, -, manifest, -, source, -, snapshot, hSnapshot, ⟨items, -, ⟨⟩, -, -, -, -, hDigest⟩, rfl⟩ := h
  exact ⟨_, snapshot, rfl, hSnapshot, hDigest⟩

theorem image_of_checkIsolation {allowed : List Json} {execution : Json} {duration : Int}
    (h : checkIsolation allowed execution = .ok duration) :
    ∃ image, execution.member "container_image" = .str image ∧ isImageReference image = true ∧ .str image ∈ allowed := by
  simp only [checkIsolation, Except.bind_eq_ok_iff, require_eq_ok, exists_const] at h
  obtain ⟨-, ⟨-, -, hReference, hAllowed, -⟩, -⟩ := h
  obtain ⟨image, hImage, hMatches⟩ := (Option.any_eq_true _ _).mp hReference
  rw [Json.str?_eq_some] at hImage
  exact ⟨image, hImage, hMatches, hImage ▸ hAllowed⟩

theorem readResultFile_eq_ok {label : String} {file : ResultFile} {content : Bytes} :
    readResultFile label file = .ok content ↔ file = .regular content := by
  cases file <;> simp [readResultFile]

/-- The receipt of a verified envelope is what its payload reads as. -/
theorem loads_of_verify {envelopeBytes payload : Bytes} {jwk receipt : Json}
    (h : verifyReceiptEnvelope t scheme schema envelopeBytes jwk = .ok (receipt, payload)) :
    t.loads payload = some receipt := by
  simp only [verifyReceiptEnvelope, readReceipt, Toolkit.strictJson, Except.bind_eq_ok_iff, Except.ofOption_eq_ok_iff,
    require_eq_ok, exists_const, Except.pure_eq_ok_iff, Prod.mk.injEq] at h
  obtain ⟨_, -, _, ⟨_, hLoads, -, rfl⟩, -, rfl, rfl⟩ := h
  exact hLoads

/-- Everything that has been checked of what is to be written. -/
structure Approved.Sound (t : Toolkit) (scheme : Ed25519 Key) (schema : Signing.Schema) (u : Unicode)
    (directory : FrozenDirectory) (times : CaptureTimes) (output : WorkerOutput) (signer : Signer Key)
    (approved : Approved) : Prop where
  frozen : verifyFrozenSource t u .default directory times = .ok approved.frozen
  receipt : output.receipt = .regular approved.receiptBytes ∧ t.loads approved.receiptBytes = some approved.receipt
  execution : ∃ executionBytes, output.execution = .regular executionBytes ∧
    t.loads executionBytes = some approved.execution
  envelope : verifyReceiptEnvelope t scheme schema approved.envelopeBytes (publicJwk scheme signer.privateKey) =
    .ok (approved.receipt, approved.receiptBytes)
  bound : Bound t approved.frozen approved.receiptBytes approved.receipt approved.execution
  onDisk : ∃ digest, FoundOnDisk t u directory times approved.frozen digest ∧
    valueAt approved.receipt ["artifact", "digest", "sha256"] = .ok (.str digest)
  image : ∃ image, approved.execution.member "container_image" = .str image ∧
    .str image ∈ signer.allowedImageReferences

theorem sound_of_approve {approved : Approved}
    (h : approve t scheme schema u milliseconds directory times output signer = .ok approved) :
    approved.Sound t scheme schema u directory times output signer := by
  simp only [approve, loadStrictCommerceJson, Except.bind_eq_ok_iff, require_eq_ok, exists_const,
    Except.ofOption_eq_ok_iff, Except.pure_eq_ok_iff, Prod.exists] at h
  obtain ⟨frozen, hFrozen, -, receiptBytes, hReceipt, executionBytes, hExecution, -, -, receipt, hLoads, execution,
    hReport, -, duration, hIsolation, ⟨⟩, -, ⟨⟩, hBinding, envelope, -, verified, payload, hVerified, rfl, rfl⟩ := h
  have bound := bound_of_checkBinding hBinding
  obtain ⟨names, snapshot, hRoot, hSnapshot, hDigest⟩ := found_of_verify hFrozen
  obtain ⟨image, hImage, -, hAllowed⟩ := image_of_checkIsolation hIsolation
  have hSame : verified = receipt := Option.some.inj ((loads_of_verify hVerified).symm.trans hLoads)
  exact {
    frozen := hFrozen
    receipt := ⟨readResultFile_eq_ok.mp hReceipt, hLoads⟩
    execution := ⟨executionBytes, readResultFile_eq_ok.mp hExecution, hReport⟩
    envelope := hSame ▸ hVerified
    bound := bound
    onDisk := ⟨snapshot.directorySha256, ⟨names, snapshot, hRoot, hSnapshot, rfl⟩, hDigest ▸ bound.artifact⟩
    image := ⟨image, hImage, hAllowed⟩ }

/-- The writing of an envelope: nothing was at its path, and no other file changes. -/
theorem writeEnvelope_returns {target : List String} {envelopeBytes : Bytes} {disk after : Disk}
    (h : (writeEnvelope target envelopeBytes).Returns disk () after) :
    disk.at? target = none ∧ after.at? target = some (.file envelopeBytes) ∧
      ∀ path content, path ≠ target → (after.at? path = some (.file content) ↔ disk.at? path = some (.file content)) := by
  unfold Routine.Returns writeEnvelope at h
  split at h
  · next hAbsent =>
      split at h
      · cases h
      · next made hMade =>
          split at h
          · cases h
          · next last hLast =>
              obtain rfl := (Prod.mk.inj h).2
              obtain ⟨-, hAt⟩ := Disk.createFile_eq_some hLast
              refine ⟨hAbsent, (hAt target).trans (if_pos rfl), ?_⟩
              intro path content hOther
              rw [hAt, if_neg hOther]
              exact Disk.file_makeDirectories hMade
  · cases h

/-- When an envelope is not written, all files are as before. -/
theorem writeEnvelope_raises {target : List String} {envelopeBytes : Bytes} {disk after : Disk} {error : Raised}
    (h : (writeEnvelope target envelopeBytes).Raises disk error after) (path : List String) (content : Bytes) :
    after.at? path = some (.file content) ↔ disk.at? path = some (.file content) := by
  unfold Routine.Raises writeEnvelope at h
  split at h
  · split at h
    · obtain rfl := (Prod.mk.inj h).2
      exact .rfl
    · next made hMade =>
        split at h
        · obtain rfl := (Prod.mk.inj h).2
          exact Disk.file_makeDirectories hMade
        · cases h
  · obtain rfl := (Prod.mk.inj h).2
    exact .rfl

end

/-- The gate signs only what is bound to its evidence, and changes no file when it raises. -/
theorem gate_sound {Key : Type} (t : Toolkit) (scheme : Ed25519 Key) (schema : Signing.Schema) (u : Unicode)
    (milliseconds : Int → Int) (directory : FrozenDirectory) (times : CaptureTimes) (output : WorkerOutput)
    (signer : Signer Key) (target : List String) (disk : Disk) :
    (∀ report after, (signVerifiedWorkerResult t scheme schema u milliseconds directory times output signer target).Returns
        disk report after →
      ∃ approved : Approved, approved.Sound t scheme schema u directory times output signer ∧
        report = summary t approved (keyidOf t scheme signer.privateKey) ∧
        disk.at? target = none ∧ after.at? target = some (.file approved.envelopeBytes) ∧
        ∀ path content, path ≠ target →
          (after.at? path = some (.file content) ↔ disk.at? path = some (.file content))) ∧
    ∀ error after, (signVerifiedWorkerResult t scheme schema u milliseconds directory times output signer target).Raises
        disk error after →
      ∀ path content, after.at? path = some (.file content) ↔ disk.at? path = some (.file content) := by
  constructor
  · intro report after h
    simp only [signVerifiedWorkerResult, Routine.returns_bind, Routine.returns_reading, Routine.returns_pure] at h
    obtain ⟨approved, middle, ⟨hApproved, rfl⟩, ⟨⟩, written, hWritten, keyid, last, ⟨hKeyid, rfl⟩, rfl, rfl⟩ := h
    rw [jwkThumbprint_publicJwk] at hKeyid
    obtain rfl := Except.ok.inj hKeyid
    exact ⟨approved, sound_of_approve hApproved, rfl, writeEnvelope_returns hWritten⟩
  · intro error after h path content
    rw [signVerifiedWorkerResult, Routine.raises_bind_iff] at h
    rcases h with hChecks | ⟨approved, middle, hApproved, hLater⟩
    · obtain ⟨-, rfl⟩ := Routine.raises_reading_iff.mp hChecks
      exact .rfl
    · obtain ⟨-, rfl⟩ := Routine.returns_reading.mp hApproved
      rcases Routine.raises_bind_iff.mp hLater with hWriting | ⟨_, last, -, hSummary⟩
      · exact writeEnvelope_raises hWriting path content
      · -- after the writing nothing raises
        rcases Routine.raises_bind_iff.mp hSummary with hKeyid | ⟨_, _, -, hPure⟩
        · obtain ⟨hError, -⟩ := Routine.raises_reading_iff.mp hKeyid
          rw [jwkThumbprint_publicJwk] at hError
          cases hError
        · exact absurd hPure Routine.not_raises_pure

end StageB

end VouchSpec
