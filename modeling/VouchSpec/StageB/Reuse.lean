import VouchSpec.StageB.Tamper

/-! A freeze of a source that has been frozen before: what is found under the digest of a
request is verified, and returned whatever request it was frozen for. -/

namespace VouchSpec

namespace StageB

open Inspection Signing

/-- A manifest names the source and the digest of a request. -/
def NamesRequest (p : Platform) (request : ValidationRequest) (manifest : Json) : Prop :=
  (manifest.member "source").sorted = request.source.toJson ∧
    manifest.member "request_digest" = .str ("sha256:" ++ requestDigest p request)

/-- Whatever the freeze returns names the request it was given. -/
def Agrees (t : Toolkit) (sha1 : Bytes → Bytes) (u : Unicode) (limits : ScanLimits) (value : Json)
    (request : ValidationRequest) (attempt : Attempt) (output : OutputRoot) : Prop :=
  ∀ frozen, (freezePublicSource t sha1 u limits value attempt output).1 = .ok frozen →
    NamesRequest t.toPlatform request frozen.manifest

/-- What is found in the place of a request's freeze is refused, or has the manifest of one. -/
def Fitting (t : Toolkit) (u : Unicode) (limits : ScanLimits) (request : ValidationRequest) (attempt : Attempt)
    (output : OutputRoot) : Prop :=
  ∀ stored, output.entries (requestDigest t.toPlatform request) = some stored →
    (∃ failure, verifyTarget t u limits output (requestDigest t.toPlatform request) attempt.verified = .error failure) ∨
      ∃ text manifest, stored.manifest = some text ∧ t.loads text = some manifest ∧
        NamesRequest t.toPlatform request manifest

section
variable {t : Toolkit} {sha1 : Bytes → Bytes} {u : Unicode} {limits : ScanLimits} {value : Json}
  {request : ValidationRequest} {attempt : Attempt} {output : OutputRoot}

/-- A freeze into a directory that is there. -/
theorem freeze_existing {stored : Stored} (hRequest : parseFreshValidationRequest value = .ok request)
    (hStored : output.entries (requestDigest t.toPlatform request) = some stored) :
    freezePublicSource t sha1 u limits value attempt output =
      (verifyTarget t u limits output (requestDigest t.toPlatform request) attempt.verified, output) := by
  have hParsed : Routine.Returns (Routine.reading fun _ : OutputRoot =>
      (parseFreshValidationRequest value).mapError refused) output request output :=
    Routine.returns_reading.mpr ⟨Except.mapError_eq_ok_iff.mpr hRequest, rfl⟩
  have hFound : Routine.Returns (Routine.reading fun output : OutputRoot =>
      (.ok (output.entries (requestDigest t.toPlatform request)) : Except Failure (Option Stored))) output (some stored)
        output :=
    Routine.returns_reading.mpr ⟨congrArg Except.ok hStored, rfl⟩
  rw [freezePublicSource, Routine.bind_of_returns hParsed, Routine.bind_of_returns hFound, if_pos Option.isSome_some]
  rfl

/-- The manifest that a verification returns is the one of the directory. -/
theorem manifest_of_verifyTarget {stored : Stored} {name : String} {times : CaptureTimes} {frozen : FrozenSource}
    (hStored : output.entries name = some stored) (h : verifyTarget t u limits output name times = .ok frozen) :
    ∃ text, stored.manifest = some text ∧ t.loads text = some frozen.manifest := by
  simp only [verifyTarget, hStored, verifyFrozenSource, loadStrictCommerceJson, Except.bind_eq_ok_iff,
    Except.ofOption_eq_ok_iff, Except.mapError_eq_ok_iff, Except.pure_eq_ok_iff] at h
  obtain ⟨_, hSame, text, hText, manifest, hManifest, -, -, -, -, -, -, rfl⟩ := h
  obtain rfl := Option.some.inj hSame
  exact ⟨text, hText, hManifest⟩

/-- The manifest of a fresh freeze names its request. -/
theorem names_written {networkPhase : String} {snapshot : Snapshot} {files : List Json}
    (written : Written request networkPhase snapshot files) :
    NamesRequest t.toPlatform request (writtenManifest t request networkPhase snapshot files).sorted := by
  have hMember := Json.member_sorted (written.plain (t := t))
  constructor
  · rw [hMember, writtenManifest, freezeManifest, manifestMembers]
    simp [Json.member, Json.get?, source_sorted]
  · rw [hMember, writtenManifest, freezeManifest, manifestMembers]
    simp [Json.member, Json.get?]

/-- A freeze into a directory that is not there agrees with its request. -/
theorem agrees_of_new (hRequest : parseFreshValidationRequest value = .ok request)
    (hNew : output.entries (requestDigest t.toPlatform request) = none) :
    Agrees t sha1 u limits value request attempt output := by
  intro frozen hFrozen
  rw [freeze_new hRequest hNew] at hFrozen
  cases hBuilt : buildFrozen t sha1 u limits request attempt with
  | error error =>
      simp only [hBuilt] at hFrozen
      cases hFrozen
  | ok stored =>
      simp only [hBuilt] at hFrozen
      obtain ⟨text, hText, hManifest⟩ := manifest_of_verifyTarget (Function.update_self _ _ _) hFrozen
      obtain ⟨entries, snapshot, files, -, -, written, hWritten⟩ := written_of_buildFrozen hRequest hBuilt
      obtain rfl := Option.some.inj (hWritten.symm.trans hText)
      rw [loads_written written] at hManifest
      rw [← Option.some.inj hManifest]
      exact names_written written

end

/-- An output root that holds one directory. -/
def planted (name : String) (stored : Stored) : OutputRoot where
  path := ["frozen"]
  entries other := if other = name then some stored else none

theorem planted_entry (name : String) (stored : Stored) : (planted name stored).entries name = some stored :=
  if_pos rfl

def otherDigest : String := requestDigest Toolkit.standard.toPlatform (Fetcher.sampleRequest "other")

theorem parse_other : parseFreshValidationRequest (RequestSchema.sample "other") = .ok (Fetcher.sampleRequest "other") := by
  decide +kernel

end StageB

end VouchSpec
