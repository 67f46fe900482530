import VouchSpec.Catalog.Builder
import VouchSpec.Lifecycle.Canonical

/-! The feed that the root's phase writes, beside the feed it was given as the
previous one and the feed that was in the catalog. -/

namespace VouchSpec

namespace Catalog

open Signing Lifecycle

/-- The later feed goes on from the earlier: it has a greater sequence, and nothing
that was taken out of service is back in it. -/
structure Succeeds (earlier later : Feed) : Prop where
  sequence : earlier.sequence < later.sequence
  receipts : ∀ record ∈ earlier.receipts, record.status ≠ .current →
    ∀ other ∈ later.receipts, other.receiptId = record.receiptId → other.status ≠ .current
  issuers : ∀ issuer ∈ earlier.issuerKeys, issuer.status ≠ .active →
    ∀ other ∈ later.issuerKeys, other.keyid = issuer.keyid → other.status ≠ .active

section
variable (t : Toolkit) (directory : Directory)

/-- The key id of the issuer of a catalog. -/
def Directory.issuerKeyid? : Option String := do
  let bytes ← directory.issuerJwk
  let value ← t.loads bytes
  (jwkThumbprint t value).toOption

/-- An envelope holds a feed of this root. -/
def HoldsFeed {Key : Type} (scheme : Ed25519 Key) (rootKey : Key) (envelope : Option Bytes) (feed : Feed) : Prop :=
  ∃ bytes payload, envelope = some bytes ∧
    verifyLifecycleEnvelope t scheme bytes (publicJwk scheme rootKey) = .ok (feed, payload)

/-- The catalog lists nothing that the feed has taken out of service. -/
structure InService (feed : Feed) : Prop where
  receipts : ∀ index, directory.index? t = some index → ∀ record ∈ feed.receipts, record.status ≠ .current →
    record.receiptId ∉ index.entries.map Entry.receiptId
  issuers : ∀ issuer ∈ feed.issuerKeys, issuer.status ≠ .active → directory.issuerKeyid? t ≠ some issuer.keyid

end

section
variable {Key : Type} {t : Toolkit} {scheme : Ed25519 Key} {schema : Signing.Schema}

theorem checkReceipts_eq_ok {directory : Directory} {issuerJwk : Json} {entries : List Entry}
    {receiptIds : List String} (hChecked : checkReceipts t scheme schema directory issuerJwk entries = .ok receiptIds) :
    receiptIds = entries.map Entry.receiptId := by
  induction entries generalizing receiptIds with
  | nil => exact (Except.ok.inj hChecked).symm
  | cons entry rest ih =>
      simp only [checkReceipts, Except.bind_eq_ok_iff, require_eq_ok, exists_const, Except.pure_eq_ok_iff,
        Prod.exists] at hChecked
      obtain ⟨_, -, _, _, -, _, -, -, others, hOthers, rfl⟩ := hChecked
      rw [List.map_cons, ih hOthers]

/-- A key that has a thumbprint is an object of three texts. -/
theorem plain_of_thumbprint {jwk : Json} {keyid : String} {depth : Nat} (hPlain : jwk.Plain depth)
    (hKeyid : jwkThumbprint t jwk = .ok keyid) : jwk.Plain 1 := by
  simp only [jwkThumbprint, Except.bind_eq_ok_iff, require_eq_ok, exists_const] at hKeyid
  obtain ⟨hMembers, ⟨hKty, hCrv⟩, _, hKey, -⟩ := hKeyid
  have hX := (b64urlDecode_eq_ok hKey).2
  cases jwk with
  | obj members =>
      refine ⟨hPlain.nodup, fun member hMember => ?_⟩
      simp only [Json.hasExactly, Bool.and_eq_true, List.all_eq_true, decide_eq_true_eq] at hMembers
      have hGet := (Json.get?_obj_eq_some hPlain.nodup).mpr hMember
      have hName := hMembers.1 member hMember
      simp only [List.mem_cons, List.not_mem_nil, or_false] at hName
      have hText : ∃ text, member.2 = .str text := by
        rcases hName with hName | hName | hName
        · rw [hName] at hGet
          rw [Json.member, hGet] at hKty
          exact ⟨_, hKty⟩
        · rw [hName] at hGet
          rw [Json.member, hGet] at hCrv
          exact ⟨_, hCrv⟩
        · rw [hName] at hGet
          rw [Json.member, hGet] at hX
          exact ⟨_, hX⟩
      obtain ⟨text, hText⟩ := hText
      rw [hText]
      exact Json.plain_str 0 text
  | _ => simp [Json.hasExactly] at hMembers

theorem plain_lifecycleFeed {sequence : Int} {generatedAt expiresAt issuerKeyid : String} {issuerJwk : Json}
    {receiptIds : List String} (hSequence : sequence.natAbs < 10 ^ Json.maxDigits) (hJwk : issuerJwk.Plain 1) :
    (lifecycleFeed sequence generatedAt expiresAt issuerKeyid issuerJwk receiptIds).Plain readableDepth := by
  have hDeep : issuerJwk.Plain 29 := hJwk.mono (by decide)
  simp [lifecycleFeed, readableDepth, hSequence, hDeep]

theorem boundedItems_eq_ok {value : Json} {minimum maximum : Nat} {error : Raised} {items : List Json}
    (hItems : boundedItems value minimum maximum error = .ok items) : value = .arr items := by
  unfold boundedItems at hItems
  split at hItems
  · simp only [Except.bind_eq_ok_iff, require_eq_ok, exists_const, Except.pure_eq_ok_iff] at hItems
    rw [hItems.2]
  · cases hItems

theorem readRecord_current {seen : List String} {receiptId : String} {record : Record}
    (hRead : readRecord seen (.obj [("receipt_id", .str receiptId), ("status", .str "current")]) = .ok record) :
    record = ⟨receiptId, .current, none⟩ := by
  simp only [readRecord, Except.bind_eq_ok_iff, require_eq_ok, exists_const, Except.pure_eq_ok_iff,
    Except.ofOption_eq_ok_iff] at hRead
  obtain ⟨-, -, found, hFound, -, known, -, -, status, hStatus, state, hState, reason, hReason, rfl⟩ := hRead
  obtain rfl : receiptId = found := Option.some.inj hFound
  obtain rfl : "current" = status := Option.some.inj hStatus
  obtain rfl : ReceiptStatus.current = state := Except.ok.inj hState
  obtain rfl : none = reason := Except.ok.inj hReason
  rfl

/-- A list of current receipts is read as one. -/
theorem readRecords_current {seen receiptIds : List String} {records : List Record}
    (hRead : readRecords seen (receiptIds.map fun receiptId =>
      .obj [("receipt_id", .str receiptId), ("status", .str "current")]) = .ok records) :
    records = receiptIds.map fun receiptId => ⟨receiptId, .current, none⟩ := by
  induction receiptIds generalizing seen records with
  | nil => exact (Except.ok.inj hRead).symm
  | cons receiptId rest ih =>
      simp only [List.map_cons, readRecords, Except.bind_eq_ok_iff, Except.pure_eq_ok_iff] at hRead
      obtain ⟨first, hFirst, others, hOthers, rfl⟩ := hRead
      rw [List.map_cons, ih hOthers, readRecord_current hFirst]

theorem readIssuer_active {issuerKeyid : String} {issuerJwk : Json} {issuer : Issuer}
    (hRead : readIssuer t [] (.obj [("keyid", .str issuerKeyid), ("jwk", issuerJwk), ("status", .str "active")]) =
      .ok issuer) : issuer = ⟨issuerKeyid, issuerJwk, .active⟩ := by
  simp only [readIssuer, Except.bind_eq_ok_iff, require_eq_ok, exists_const, Except.pure_eq_ok_iff,
    Except.ofOption_eq_ok_iff] at hRead
  obtain ⟨-, known, -, -, status, hStatus, keyid, -, ⟨hKeyid, -⟩, rfl⟩ := hRead
  have hActive : issuerStatus? (.str "active") = some .active := by decide
  obtain rfl : IssuerStatus.active = status := Option.some.inj (hActive.symm.trans hStatus)
  obtain rfl : issuerKeyid = keyid := Json.str.inj hKeyid
  rfl

/-- The feed that the root's phase builds, as the validator reads it. -/
theorem validate_lifecycleFeed {sequence : Int} {generatedAt expiresAt issuerKeyid : String} {issuerJwk : Json}
    {receiptIds : List String} {feed : Feed}
    (hValid : validateLifecycleFeed t (lifecycleFeed sequence generatedAt expiresAt issuerKeyid issuerJwk receiptIds) =
      .ok feed) :
    feed.sequence = sequence ∧ feed.issuerKeys = [⟨issuerKeyid, issuerJwk, .active⟩] ∧
      feed.receipts = receiptIds.map fun receiptId => ⟨receiptId, .current, none⟩ := by
  simp only [validateLifecycleFeed, Except.bind_eq_ok_iff, require_eq_ok, exists_const, Except.pure_eq_ok_iff,
    Except.ofOption_eq_ok_iff] at hValid
  obtain ⟨-, -, found, hFound, -, generated, -, expires, -, -, issuers, hIssuers, issuerKeys, hKeys, records, hRecords,
    receipts, hReceipts, rfl⟩ := hValid
  have hIssuerList := Json.arr.inj (boundedItems_eq_ok hIssuers)
  have hRecordList := Json.arr.inj (boundedItems_eq_ok hRecords)
  refine ⟨(Option.some.inj hFound).symm, ?_, ?_⟩
  · rw [← hIssuerList] at hKeys
    simp only [readIssuers, Except.bind_eq_ok_iff, Except.pure_eq_ok_iff, Except.ok.injEq, exists_eq_left'] at hKeys
    obtain ⟨issuer, hIssuer, rfl⟩ := hKeys
    exact congrArg (fun issuer => [issuer]) (readIssuer_active hIssuer)
  · rw [← hRecordList] at hReceipts
    exact readRecords_current hReceipts

/-- What a call that returns has read, checked and written. -/
theorem finalizeCatalogLifecycle_eq_ok {directory after : Directory} {rootKey : Key} {timestamp : Int}
    {previous : Option Bytes} {report : LifecycleReport}
    (hReturned : finalizeCatalogLifecycle t scheme schema directory rootKey timestamp previous = .ok (after, report)) :
    ∃ sequence issuerJwk issuerKeyid index envelope feed,
      (directory.lifecycle = none ∨ previous ≠ none) ∧
      nextSequence t scheme (publicJwk scheme rootKey) previous = .ok sequence ∧
      directory.issuerKeyid? t = some issuerKeyid ∧ directory.index? t = some index ∧
      issuerJwk.Plain 1 ∧ sequence.natAbs < 10 ^ Json.maxDigits ∧
      validateLifecycleFeed t (lifecycleFeed sequence (t.timestamp timestamp)
        (t.timestamp (timestamp + 7 * 86400 * 1000000)) issuerKeyid issuerJwk
        (index.entries.map Entry.receiptId)) = .ok feed ∧
      signLifecycleFeed t scheme (deterministicJson (lifecycleFeed sequence (t.timestamp timestamp)
        (t.timestamp (timestamp + 7 * 86400 * 1000000)) issuerKeyid issuerJwk
        (index.entries.map Entry.receiptId))) rootKey = .ok envelope ∧
      after.lifecycle = some (jsonLine envelope) := by
  simp only [finalizeCatalogLifecycle, Except.bind_eq_ok_iff, require_eq_ok, exists_const, Except.pure_eq_ok_iff,
    Prod.mk.injEq, readBytes, Toolkit.strictJson, Except.ofOption_eq_ok_iff] at hReturned
  obtain ⟨hPrevious, sequence, hSequence, issuerBytes, hIssuerBytes, issuerJwk, hIssuerJwk, _, -, issuerKeyid,
    hIssuerKeyid, -, indexBytes, hIndexBytes, value, hValue, index, hIndex, receiptIds, hReceipts, feed, hFeed, hShort,
    envelope, hEnvelope, -, -, rfl, -⟩ := hReturned
  obtain rfl := checkReceipts_eq_ok hReceipts
  obtain ⟨depth, hPlain⟩ := t.plain_of_loads hIssuerJwk
  refine ⟨sequence, issuerJwk, issuerKeyid, index, envelope, feed, hPrevious, hSequence, ?_, ?_,
    plain_of_thumbprint hPlain hIssuerKeyid, hShort, hFeed, hEnvelope, rfl⟩
  · simp only [Directory.issuerKeyid?, hIssuerBytes, hIssuerJwk, hIssuerKeyid, bind, Option.bind, Except.toOption]
  · simp only [Directory.index?, hIndexBytes, hValue, hIndex, bind, Option.bind, Except.toOption]

theorem nextSequence_eq_ok {rootKey : Key} {previous : Option Bytes} {sequence : Int} {feed : Feed}
    (hSequence : nextSequence t scheme (publicJwk scheme rootKey) previous = .ok sequence)
    (hFeed : HoldsFeed t scheme rootKey previous feed) : sequence = feed.sequence + 1 := by
  obtain ⟨bytes, payload, rfl, hVerified⟩ := hFeed
  simp only [nextSequence, hVerified, bind, Except.bind] at hSequence
  exact (Except.ok.inj hSequence).symm

/-- The written feed goes on from a feed exactly when it has a greater sequence and
the catalog lists nothing that feed has taken out of service. -/
theorem succeeds_iff {directory : Directory} {earlier later : Feed} {index : Index} {issuerKeyid : String}
    {issuerJwk : Json} (hIndex : directory.index? t = some index) (hKeyid : directory.issuerKeyid? t = some issuerKeyid)
    (hIssuers : later.issuerKeys = [⟨issuerKeyid, issuerJwk, .active⟩])
    (hReceipts : later.receipts = (index.entries.map Entry.receiptId).map fun receiptId => ⟨receiptId, .current, none⟩) :
    Succeeds earlier later ↔ earlier.sequence < later.sequence ∧ InService t directory earlier := by
  constructor
  · intro succeeds
    refine ⟨succeeds.sequence, ?_, ?_⟩
    · intro other hOther record hRecord hStatus hListed
      obtain rfl := Option.some.inj (hIndex.symm.trans hOther)
      refine succeeds.receipts record hRecord hStatus ⟨record.receiptId, .current, none⟩ ?_ rfl rfl
      rw [hReceipts]
      exact List.mem_map_of_mem (f := fun receiptId => (⟨receiptId, .current, none⟩ : Record)) hListed
    · intro issuer hIssuer hStatus hSame
      refine succeeds.issuers issuer hIssuer hStatus ⟨issuerKeyid, issuerJwk, .active⟩ ?_ ?_ rfl
      · rw [hIssuers]
        exact List.mem_singleton_self _
      · exact Option.some.inj (hKeyid.symm.trans hSame)
  · rintro ⟨hSequence, inService⟩
    refine ⟨hSequence, ?_, ?_⟩
    · intro record hRecord hStatus other hOther hSame
      rw [hReceipts] at hOther
      obtain ⟨receiptId, hListed, rfl⟩ := List.mem_map.mp hOther
      have hReceipt : receiptId = record.receiptId := hSame
      exact absurd (hReceipt ▸ hListed) (inService.receipts index hIndex record hRecord hStatus)
    · intro issuer hIssuer hStatus other hOther hSame
      rw [hIssuers] at hOther
      rw [List.mem_singleton.mp hOther] at hSame
      have hIssuerKeyid : issuerKeyid = issuer.keyid := hSame
      exact absurd (hKeyid.trans (congrArg some hIssuerKeyid)) (inService.issuers issuer hIssuer hStatus)

/-- The written feed is one of the root, and it goes on from the previous feed and
from the one in the catalog exactly when the latter is not ahead of the former and
the catalog lists nothing that either has taken out of service. -/
theorem succession_iff (t : Toolkit) (scheme : Ed25519 Key) (schema : Signing.Schema) (hCorrect : scheme.Correct)
    (directory after : Directory) (rootKey : Key) (timestamp : Int) (previous : Option Bytes) (report : LifecycleReport)
    (hReturned : finalizeCatalogLifecycle t scheme schema directory rootKey timestamp previous = .ok (after, report)) :
    ∃ written, HoldsFeed t scheme rootKey after.lifecycle written ∧
      ((∀ earlier, HoldsFeed t scheme rootKey previous earlier ∨ HoldsFeed t scheme rootKey directory.lifecycle earlier →
          Succeeds earlier written) ↔
        (∀ existing, HoldsFeed t scheme rootKey directory.lifecycle existing →
          ∀ given, HoldsFeed t scheme rootKey previous given → existing.sequence ≤ given.sequence) ∧
        ∀ earlier, HoldsFeed t scheme rootKey previous earlier ∨ HoldsFeed t scheme rootKey directory.lifecycle earlier →
          InService t directory earlier) := by
  obtain ⟨sequence, issuerJwk, issuerKeyid, index, envelope, feed, hPrevious, hSequence, hKeyid, hIndex, hJwk, hShort,
    hFeed, hEnvelope, hWritten⟩ := finalizeCatalogLifecycle_eq_ok hReturned
  have hVerified := verifyLifecycleEnvelope_signed hCorrect (plain_lifecycleFeed hShort hJwk) hFeed hEnvelope
  obtain ⟨hFeedSequence, hIssuers, hReceipts⟩ := validate_lifecycleFeed hFeed
  have hSucceeds : ∀ earlier, Succeeds earlier feed.sorted ↔
      earlier.sequence < sequence ∧ InService t directory earlier := by
    intro earlier
    have hSortedIssuers : feed.sorted.issuerKeys = [⟨issuerKeyid, issuerJwk.sorted, .active⟩] := by
      rw [Feed.sorted, hIssuers]
      rfl
    rw [succeeds_iff hIndex hKeyid hSortedIssuers hReceipts, ← hFeedSequence]
    rfl
  have hGiven : ∀ given, HoldsFeed t scheme rootKey previous given → sequence = given.sequence + 1 :=
    fun given => nextSequence_eq_ok hSequence
  refine ⟨feed.sorted, ⟨_, _, hWritten, hVerified⟩, ?_⟩
  simp only [hSucceeds]
  constructor
  · intro hAll
    refine ⟨fun existing hExisting given hHolds => ?_, fun earlier hEarlier => (hAll earlier hEarlier).2⟩
    have hBelow := (hAll existing (Or.inr hExisting)).1
    have hNext := hGiven given hHolds
    omega
  · rintro ⟨hOrder, hService⟩ earlier hEarlier
    refine ⟨?_, hService earlier hEarlier⟩
    rcases hEarlier with hHolds | hExisting
    · have hNext := hGiven earlier hHolds
      omega
    · -- A feed in the catalog is only replaced when a previous one is given.
      obtain ⟨bytes, payload, hLifecycle, -⟩ := id hExisting
      obtain ⟨given, hHolds⟩ : ∃ given, HoldsFeed t scheme rootKey previous given := by
        cases previous with
        | none =>
            rw [hLifecycle] at hPrevious
            simp at hPrevious
        | some other =>
            simp only [nextSequence, Except.bind_eq_ok_iff, Prod.exists] at hSequence
            obtain ⟨given, image, hVerify, -⟩ := hSequence
            exact ⟨given, other, image, rfl, hVerify⟩
      have hNext := hGiven given hHolds
      have hLe := hOrder earlier hExisting given hHolds
      omega

/-- A call whose checks succeed returns. -/
theorem finalize_of_checked {directory : Directory} {rootKey : Key} {timestamp sequence : Int}
    {previous : Option Bytes} {issuerBytes indexBytes : Bytes} {issuerJwk value envelope : Json}
    {rootKeyid issuerKeyid : String} {index : Index} {receiptIds : List String} {feed : Feed}
    (hPrevious : directory.lifecycle = none ∨ previous ≠ none)
    (hSequence : nextSequence t scheme (publicJwk scheme rootKey) previous = .ok sequence)
    (hIssuerBytes : directory.issuerJwk = some issuerBytes)
    (hIssuerJwk : t.strictJson issuerBytes "invalid_key" = .ok issuerJwk)
    (hRootKeyid : jwkThumbprint t (publicJwk scheme rootKey) = .ok rootKeyid)
    (hIssuerKeyid : jwkThumbprint t issuerJwk = .ok issuerKeyid) (hDistinct : rootKeyid ≠ issuerKeyid)
    (hIndexBytes : directory.index = some indexBytes) (hValue : t.strictJson indexBytes "invalid_catalog" = .ok value)
    (hIndex : validateCatalogIndex value = .ok index)
    (hReceipts : checkReceipts t scheme schema directory issuerJwk index.entries = .ok receiptIds)
    (hValid : validateLifecycleFeed t (lifecycleFeed sequence (t.timestamp timestamp)
      (t.timestamp (timestamp + 7 * 86400 * 1000000)) issuerKeyid issuerJwk receiptIds) = .ok feed)
    (hShort : sequence.natAbs < 10 ^ Json.maxDigits)
    (hSigned : signLifecycleFeed t scheme (deterministicJson (lifecycleFeed sequence (t.timestamp timestamp)
      (t.timestamp (timestamp + 7 * 86400 * 1000000)) issuerKeyid issuerJwk receiptIds)) rootKey = .ok envelope)
    (hRoot : checkRoot t directory (publicJwk scheme rootKey) = .ok ()) :
    finalizeCatalogLifecycle t scheme schema directory rootKey timestamp previous =
      .ok ({ directory with
          lifecycle := some (jsonLine envelope)
          rootJwk := some (directory.rootJwk.getD (jsonLine (publicJwk scheme rootKey))) },
        ⟨receiptIds.length, sequence, t.timestamp (timestamp + 7 * 86400 * 1000000), rootKeyid⟩) := by
  simp only [finalizeCatalogLifecycle, require_of hPrevious, hSequence, hIssuerBytes, readBytes, Except.ofOption,
    hIssuerJwk, hRootKeyid, hIssuerKeyid, require_of hDistinct, hIndexBytes, hValue, hIndex, hReceipts, hValid,
    require_of hShort, hSigned, hRoot, bind, Except.bind]
  rfl

end

/-- An index without entries. -/
def emptyIndex : Json :=
  .obj [("entries", .arr []), ("entry_count", .int 0), ("generated_at", .str "2026-01-01T00:00:00Z"),
    ("repository_owner_count", .int 0), ("schema_version", .str catalogSchemaVersion),
    ("service", .str "VouchSpec"), ("stage", .str "A_PUBLIC_ARTIFACT_INDEX")]

/-- A catalog without receipts, signed by the issuer of the sample feeds. -/
def emptyCatalog : Directory :=
  { index := some (deterministicJson emptyIndex)
    issuerJwk := some (jsonLine (publicJwk (.keyedDigest .standard) [1])) }

theorem strictJson_emptyIndex (code : String) :
    Toolkit.standard.strictJson (deterministicJson emptyIndex) code = .ok emptyIndex := by
  have hZero : (0 : Int).natAbs < 10 ^ Json.maxDigits := Nat.pow_pos (by decide)
  rw [Int.natAbs_zero] at hZero
  have hPlain : emptyIndex.Plain readableDepth := by
    simp [emptyIndex, readableDepth, hZero]
  have hSorted : emptyIndex.sorted = emptyIndex := by
    simp only [emptyIndex, Json.sorted, Json.sortedMembers, Json.sortedItems, List.insertionSort_cons,
      List.insertionSort_nil, List.orderedInsert, String.reduceLE, if_true]
  rw [Toolkit.standard.strictJson_deterministicJson hPlain, hSorted]

theorem strictJson_sampleIssuer (code : String) :
    Toolkit.standard.strictJson (jsonLine (publicJwk (.keyedDigest .standard) [1])) code =
      .ok (publicJwk (.keyedDigest .standard) [1]).sorted :=
  Toolkit.standard.strictJson_jsonLine ((plain_publicJwk _ _).mono (by decide)) code

theorem thumbprint_sampleIssuer : jwkThumbprint .standard (publicJwk (.keyedDigest .standard) [1]).sorted =
    .ok (keyidOf .standard (.keyedDigest .standard) [1]) :=
  (jwkThumbprint_sorted .standard (plain_publicJwk _ _)).trans (jwkThumbprint_publicJwk _ _ _)

theorem issuerKeyid?_emptyCatalog : emptyCatalog.issuerKeyid? .standard =
    some (keyidOf .standard (.keyedDigest .standard) [1]) := by
  have hLoads := Except.ofOption_eq_ok_iff.mp (strictJson_sampleIssuer "invalid_key")
  simp only [Directory.issuerKeyid?, emptyCatalog, bind, Option.bind, hLoads, thumbprint_sampleIssuer,
    Except.toOption]

theorem keyidOf_distinct : keyidOf .standard (.keyedDigest .standard) [2] ≠
    keyidOf .standard (.keyedDigest .standard) [1] := by
  decide +kernel

theorem timestamp_week : Toolkit.standard.timestamp Sample.newYear = "2026-01-01T00:00:00Z" ∧
    Toolkit.standard.timestamp (Sample.newYear + 7 * 86400 * 1000000) = "2026-01-08T00:00:00Z" := by
  decide +kernel

/-- After a feed that marks the issuer compromised, the root's phase writes one that
lists it as active. -/
theorem finalize_emptyCatalog : ∃ previous after report,
    HoldsFeed .standard (.keyedDigest .standard) [2] (some previous) (sampleFeedRead 1 .compromised [1]) ∧
    finalizeCatalogLifecycle .standard (.keyedDigest .standard) (fun _ => true) emptyCatalog [2] Sample.newYear
      (some previous) = .ok (after, report) ∧
    HoldsFeed .standard (.keyedDigest .standard) [2] after.lifecycle (sampleFeedRead 2 .active [1]) := by
  obtain ⟨previous, hPrevious⟩ := weekFeed_verified [2] [1] .compromised
  have hValid := validate_weekFeed 2 (by decide) .active [1]
  obtain ⟨envelope, hSigned⟩ := @signLifecycleFeed_of_valid _ .standard (.keyedDigest .standard) _ _ [2]
    (plain_weekFeed 2 (by decide) .active [1]) hValid (weekFeed_length 2 (by decide) .active [1])
  have hVerified := verifyLifecycleEnvelope_signed (Ed25519.keyedDigest_correct .standard)
    (plain_weekFeed 2 (by decide) .active [1]) hValid hSigned
  have hSorted : (sampleFeedRead 2 .active [1]).sorted = sampleFeedRead 2 .active [1] := by
    rw [Feed.sorted, sampleFeedRead, List.map_singleton, sorted_sampleIssuer]
  rw [hSorted] at hVerified
  have hIndex : validateCatalogIndex emptyIndex = .ok ⟨.int 0, []⟩ := by decide
  have hShort : (2 : Int).natAbs < 10 ^ Json.maxDigits :=
    lt_of_lt_of_le (by decide : (2 : Int).natAbs < 10 ^ 1) (Nat.pow_le_pow_right (by decide) (by decide))
  have hSequence : nextSequence .standard (.keyedDigest .standard) (publicJwk (.keyedDigest .standard) [2])
      (some previous) = .ok 2 := by
    simp only [nextSequence, hPrevious, bind, Except.bind]
    rfl
  have hFeed : lifecycleFeed 2 "2026-01-01T00:00:00Z" "2026-01-08T00:00:00Z"
      (keyidOf .standard (.keyedDigest .standard) [1]) (publicJwk (.keyedDigest .standard) [1]).sorted [] =
        weekFeed 2 .active [1] := rfl
  rw [← hFeed, ← timestamp_week.1, ← timestamp_week.2] at hValid hSigned
  have hReturned := @finalize_of_checked _ .standard (.keyedDigest .standard) (fun _ => true) emptyCatalog [2]
    Sample.newYear 2 (some previous) _ _ _ _ _ _ _ _ _ _ (Or.inl rfl) hSequence rfl (strictJson_sampleIssuer _)
    (jwkThumbprint_publicJwk _ _ [2]) thumbprint_sampleIssuer keyidOf_distinct rfl (strictJson_emptyIndex _) hIndex
    rfl hValid hShort hSigned rfl
  exact ⟨previous, _, _, ⟨_, _, rfl, hPrevious⟩, hReturned, ⟨_, _, rfl, hVerified⟩⟩

theorem HoldsFeed.unique {Key : Type} {t : Toolkit} {scheme : Ed25519 Key} {rootKey : Key} {envelope : Option Bytes}
    {feed other : Feed} (hFeed : HoldsFeed t scheme rootKey envelope feed)
    (hOther : HoldsFeed t scheme rootKey envelope other) : feed = other := by
  obtain ⟨bytes, payload, rfl, hVerified⟩ := hFeed
  obtain ⟨_, image, hSame, hImage⟩ := hOther
  obtain rfl := Option.some.inj hSame
  exact congrArg Prod.fst (Except.ok.inj (hVerified.symm.trans hImage))

/-- What `succession_iff` says of that call: it has left the succession. -/
theorem succession_iff_emptyCatalog : ∃ previous after report written,
    finalizeCatalogLifecycle .standard (.keyedDigest .standard) (fun _ => true) emptyCatalog [2] Sample.newYear
      (some previous) = .ok (after, report) ∧
    HoldsFeed .standard (.keyedDigest .standard) [2] after.lifecycle written ∧
    ¬∀ earlier, HoldsFeed .standard (.keyedDigest .standard) [2] (some previous) earlier ∨
      HoldsFeed .standard (.keyedDigest .standard) [2] emptyCatalog.lifecycle earlier → Succeeds earlier written := by
  obtain ⟨previous, after, report, hPrevious, hReturned, -⟩ := finalize_emptyCatalog
  obtain ⟨written, hWritten, hIff⟩ := succession_iff .standard (.keyedDigest .standard) (fun _ => true)
    (Ed25519.keyedDigest_correct .standard) emptyCatalog after [2] Sample.newYear (some previous) report hReturned
  refine ⟨previous, after, report, written, hReturned, hWritten, fun hAll => ?_⟩
  have hService := (hIff.mp hAll).2 _ (Or.inl hPrevious)
  exact hService.issuers (sampleIssuer .compromised [1]) (List.mem_singleton_self _) (by decide)
    issuerKeyid?_emptyCatalog

/-- The root's phase lists an issuer as active that the previous feed marks compromised. -/
theorem compromised_issuer_reactivated : ¬∀ (directory after : Directory) (rootKey : Bytes) (timestamp : Int)
    (previous : Option Bytes) (report : LifecycleReport),
    finalizeCatalogLifecycle .standard (.keyedDigest .standard) (fun _ => true) directory rootKey timestamp previous =
      .ok (after, report) →
    ∃ written, HoldsFeed .standard (.keyedDigest .standard) rootKey after.lifecycle written ∧
      ∀ earlier, HoldsFeed .standard (.keyedDigest .standard) rootKey previous earlier ∨
        HoldsFeed .standard (.keyedDigest .standard) rootKey directory.lifecycle earlier → Succeeds earlier written := by
  intro hClaim
  obtain ⟨previous, after, report, hPrevious, hReturned, hWritten⟩ := finalize_emptyCatalog
  obtain ⟨written, hHolds, hSucceeds⟩ := hClaim _ _ _ _ _ _ hReturned
  obtain rfl := hHolds.unique hWritten
  exact (hSucceeds _ (Or.inl hPrevious)).issuers (sampleIssuer .compromised [1]) (List.mem_singleton_self _)
    (by decide) (sampleIssuer .active [1]) (List.mem_singleton_self _) rfl rfl

end Catalog

end VouchSpec
