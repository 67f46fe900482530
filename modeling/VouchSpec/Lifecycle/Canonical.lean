import VouchSpec.Lifecycle.Feed
import VouchSpec.Signing.RoundTrip

/-! A feed is signed as the text of its document with sorted members. Sorting the
members of a document does not change what the validators make of it. -/

namespace VouchSpec

namespace Signing

variable (t : Toolkit)

theorem b64urlDecode_sorted (value : Json) (expectedBytes : Nat) :
    b64urlDecode value.sorted expectedBytes = b64urlDecode value expectedBytes := by
  simp only [b64urlDecode, base64Text, Json.str?_sorted]

theorem jwkThumbprint_sorted {jwk : Json} {depth : Nat} (hPlain : jwk.Plain depth) :
    jwkThumbprint t jwk.sorted = jwkThumbprint t jwk := by
  simp only [jwkThumbprint, Json.hasExactly_sorted, Json.member_sorted hPlain, Json.sorted_eq_str,
    b64urlDecode_sorted]
  cases hText : jwk.member "x" with
  | str text => simp only [Json.sorted]
  | _ => simp [b64urlDecode, base64Text, Json.str?, Except.ofOption, bind, Except.bind]

theorem publicKeyFromJwk_sorted {jwk : Json} {depth : Nat} (hPlain : jwk.Plain depth) :
    publicKeyFromJwk t jwk.sorted = publicKeyFromJwk t jwk := by
  simp only [publicKeyFromJwk, jwkThumbprint_sorted t hPlain, Json.member_sorted hPlain, b64urlDecode_sorted]

/-- The verifier reads the trusted key through its key id and its bytes. -/
theorem verifyDsseEnvelope_sorted {Key : Type} (scheme : Ed25519 Key) {jwk : Json} {depth : Nat}
    (hPlain : jwk.Plain depth) (envelopeBytes : Bytes) (payloadType : String) (maximum : Nat) :
    verifyDsseEnvelope t scheme envelopeBytes payloadType jwk.sorted maximum =
      verifyDsseEnvelope t scheme envelopeBytes payloadType jwk maximum := by
  simp only [verifyDsseEnvelope, jwkThumbprint_sorted t hPlain, publicKeyFromJwk_sorted t hPlain]

end Signing

namespace Lifecycle

open Signing

theorem inStrings_sorted (value : Json) (names : List String) :
    inStrings value.sorted names = inStrings value names := by
  cases value <;> simp [Json.sorted, inStrings]

theorem issuerStatus?_sorted (value : Json) : issuerStatus? value.sorted = issuerStatus? value := by
  have hSame : ∀ status : IssuerStatus, (.str status.value = value.sorted ↔ .str status.value = value) := by
    intro status
    rw [eq_comm, Json.sorted_eq_str, eq_comm]
  simp only [issuerStatus?, hSame]

/-- An issuer whose key has sorted members. -/
def Issuer.sorted (issuer : Issuer) : Issuer := { issuer with jwk := issuer.jwk.sorted }

def Feed.sorted (feed : Feed) : Feed := { feed with issuerKeys := feed.issuerKeys.map Issuer.sorted }

section
variable (t : Toolkit)

theorem time_sorted (value : Json) (field : String) : time t value.sorted field = time t value field := by
  simp only [time, Json.str?_sorted]

theorem readIssuer_sorted {record : Json} {depth : Nat} (hPlain : record.Plain depth) (seen : List String) :
    readIssuer t seen record.sorted = Issuer.sorted <$> readIssuer t seen record := by
  obtain ⟨inner, hJwk⟩ := hPlain.member "jwk"
  simp only [readIssuer, Json.hasExactly_sorted, Json.member_sorted hPlain, inStrings_sorted,
    issuerStatus?_sorted, jwkThumbprint_sorted t hJwk, Json.sorted_eq_str]
  symm
  refine Except.map_bind_of fun _ _ => Except.map_bind_of fun _ _ => Except.map_bind_of fun _ _ =>
    Except.map_bind_of fun _ _ => Except.map_bind_of fun _ _ => Except.map_bind_of fun _ _ => rfl

theorem readIssuers_sorted {records : List Json} {depth : Nat} (hPlain : ∀ record ∈ records, record.Plain depth)
    (seen : List String) : readIssuers t seen (records.map Json.sorted) =
      List.map Issuer.sorted <$> readIssuers t seen records := by
  induction records generalizing seen with
  | nil => rfl
  | cons record rest ih =>
      have hRest : ∀ record ∈ rest, record.Plain depth := fun other hOther => hPlain other (List.mem_cons_of_mem _ hOther)
      rw [List.map_cons, readIssuers, readIssuers, readIssuer_sorted t (hPlain record List.mem_cons_self)]
      cases readIssuer t seen record with
      | error error => rfl
      | ok issuer =>
          show (do
            let issuers ← readIssuers t (issuer.keyid :: seen) (rest.map Json.sorted)
            return issuer.sorted :: issuers) = _
          rw [ih hRest]
          cases hIssuers : readIssuers t (issuer.keyid :: seen) rest with
          | error error => simp [bind, Except.bind, Functor.map, Except.map, hIssuers]
          | ok issuers => simp [bind, Except.bind, Functor.map, Except.map, hIssuers, pure, Except.pure]

end

theorem readReason_sorted {record : Json} {depth : Nat} (hPlain : record.Plain depth) :
    readReason record.sorted = readReason record := by
  cases record with
  | obj members =>
      rw [readReason, readReason, Json.get?_sorted hPlain.nodup]
      cases (Json.obj members).get? "reason" with
      | none => rfl
      | some reason => cases reason <;> simp [Json.sorted]
  | _ => simp [Json.sorted, readReason, Json.get?]

theorem readStatus_sorted {record : Json} {depth : Nat} (hPlain : record.Plain depth) (status : String) :
    readStatus record.sorted status = readStatus record status := by
  have hAbsent : (record.sorted.get? "superseded_by").isNone = (record.get? "superseded_by").isNone := by
    have hSome := Json.isSome_get?_sorted hPlain "superseded_by"
    cases hSorted : record.sorted.get? "superseded_by" <;> cases hGet : record.get? "superseded_by" <;>
      simp_all
  simp only [readStatus, Json.member_sorted hPlain, Json.str?_sorted, hAbsent]

theorem hasOnlyKnown_sorted (record : Json) : hasOnlyKnown record.sorted = hasOnlyKnown record := by
  cases record with
  | obj members =>
      have hPerm := Json.sorted_perm members
      rw [Json.sorted, Json.sortedMembers_eq_map, hasOnlyKnown, hasOnlyKnown, hPerm.all_eq, List.all_map]
      rfl
  | _ => simp [Json.sorted, hasOnlyKnown]

theorem readRecord_sorted {record : Json} {depth : Nat} (hPlain : record.Plain depth) (seen : List String) :
    readRecord seen record.sorted = readRecord seen record := by
  have hDict : isDict record.sorted = isDict record := by
    cases record <;> simp [Json.sorted, isDict]
  simp only [readRecord, hasRequired, hDict, Json.isSome_get?_sorted hPlain, hasOnlyKnown_sorted,
    Json.member_sorted hPlain, Json.str?_sorted, inStrings_sorted, readStatus_sorted hPlain,
    readReason_sorted hPlain]
  congr

theorem readRecords_sorted {records : List Json} {depth : Nat} (hPlain : ∀ record ∈ records, record.Plain depth)
    (seen : List String) : readRecords seen (records.map Json.sorted) = readRecords seen records := by
  induction records generalizing seen with
  | nil => rfl
  | cons record rest ih =>
      have hRest : ∀ record ∈ rest, record.Plain depth := fun other hOther => hPlain other (List.mem_cons_of_mem _ hOther)
      simp only [List.map_cons, readRecords, readRecord_sorted (hPlain record List.mem_cons_self), ih hRest]

theorem boundedItems_sorted (value : Json) (minimum maximum : Nat) (error : Raised) :
    boundedItems value.sorted minimum maximum error =
      List.map Json.sorted <$> boundedItems value minimum maximum error := by
  cases value with
  | arr items =>
      rw [Json.sorted, Json.sortedItems_eq_map, boundedItems, boundedItems, List.length_map]
      symm
      exact Except.map_bind_of fun _ _ => rfl
  | _ => simp [Json.sorted, boundedItems, Functor.map, Except.map]

section
variable {Key : Type} (t : Toolkit) (scheme : Ed25519 Key)

theorem boundedItems_plain {value : Json} {depth minimum maximum : Nat} {name : String} {error : Raised}
    {items : List Json} (hPlain : value.Plain depth)
    (hItems : boundedItems (value.member name) minimum maximum error = .ok items) :
    ∃ inner, ∀ item ∈ items, item.Plain inner := by
  obtain ⟨inner, hMember⟩ := hPlain.member name
  unfold boundedItems at hItems
  split at hItems
  · next found hFound =>
      simp only [Except.bind_eq_ok_iff, require_eq_ok, exists_const, Except.pure_eq_ok_iff] at hItems
      rw [hFound] at hMember
      exact hItems.2 ▸ hMember.items
  · cases hItems

/-- The document that is read back is as good as the one that was checked. -/
theorem validateLifecycleFeed_sorted {value : Json} {depth : Nat} (hPlain : value.Plain depth) :
    validateLifecycleFeed t value.sorted = Feed.sorted <$> validateLifecycleFeed t value := by
  simp only [validateLifecycleFeed, Json.hasExactly_sorted, Json.member_sorted hPlain, Json.sorted_eq_str,
    Json.int?_sorted, time_sorted, boundedItems_sorted]
  symm
  refine Except.map_bind_of fun _ _ => Except.map_bind_of fun _ _ => Except.map_bind_of fun _ _ =>
    Except.map_bind_of fun _ _ => Except.map_bind_of fun _ _ => Except.map_bind_of fun _ _ =>
    Except.map_bind_of fun _ _ => ?_
  cases hIssuers : boundedItems (value.member "issuer_keys") 1 100
    (invalidFeed "lifecycle feed must contain bounded issuer keys") with
  | error error => rfl
  | ok issuers =>
      obtain ⟨_, hIssuersPlain⟩ := boundedItems_plain hPlain hIssuers
      simp only [bind, Except.bind, Functor.map, Except.map, readIssuers_sorted t hIssuersPlain]
      cases readIssuers t [] issuers with
      | error error => rfl
      | ok keys =>
          cases hRecords : boundedItems (value.member "receipts") 0 100000
            (invalidFeed "invalid lifecycle receipt list") with
          | error error => rfl
          | ok records =>
              obtain ⟨_, hRecordsPlain⟩ := boundedItems_plain hPlain hRecords
              simp only [readRecords_sorted hRecordsPlain]
              cases readRecords [] records with
              | error error => rfl
              | ok receipts => rfl

end

section
variable {Key : Type} {t : Toolkit} {scheme : Ed25519 Key}

/-- A signed feed is read back with its members sorted. -/
theorem verifyLifecycleEnvelope_signed (hCorrect : scheme.Correct) {value envelope : Json} {feed : Feed}
    {rootPrivateKey : Key} (hPlain : value.Plain readableDepth) (hValid : validateLifecycleFeed t value = .ok feed)
    (hSigned : signLifecycleFeed t scheme (deterministicJson value) rootPrivateKey = .ok envelope) :
    verifyLifecycleEnvelope t scheme (jsonLine envelope) (publicJwk scheme rootPrivateKey) =
      .ok (feed.sorted, deterministicJson value) := by
  have hSorted : validateLifecycleFeed t value.sorted = .ok feed.sorted := by
    rw [validateLifecycleFeed_sorted t hPlain, hValid]
    rfl
  simp only [signLifecycleFeed, t.strictJson_deterministicJson hPlain, bind, Except.bind, hSorted] at hSigned
  have hVerified := (verify_signed_iff t hCorrect .lifecycle _ _ _ hSigned).mpr (Or.inl (by decide))
  have hSame : verifyDsseEnvelope t scheme (jsonLine envelope) lifecyclePayloadType
      (publicJwk scheme rootPrivateKey) 1000000 = .ok (deterministicJson value) := hVerified
  simp only [verifyLifecycleEnvelope, hSame, bind, Except.bind, t.strictJson_deterministicJson hPlain, hSorted]
  rfl

theorem deterministicJson_ne_nil (value : Json) : deterministicJson value ≠ [] := by
  intro hNil
  obtain ⟨first, more, hText, -⟩ := Json.text_head value.sorted
  rw [deterministicJson, hText] at hNil
  have hLength := congrArg List.length hNil
  rw [Bytes.utf8, List.flatMap_cons, List.length_append, String.length_utf8EncodeChar] at hLength
  have hChar := Char.utf8Size_pos first
  simp only [List.length_nil] at hLength
  omega

/-- A document that the validator accepts is signed, up to the size of a payload. -/
theorem signLifecycleFeed_of_valid {value : Json} {feed : Feed} (rootPrivateKey : Key)
    (hPlain : value.Plain readableDepth) (hValid : validateLifecycleFeed t value = .ok feed)
    (hSize : (deterministicJson value).length ≤ 1000000) :
    ∃ envelope, signLifecycleFeed t scheme (deterministicJson value) rootPrivateKey = .ok envelope := by
  have hSorted : validateLifecycleFeed t value.sorted = .ok feed.sorted := by
    rw [validateLifecycleFeed_sorted t hPlain, hValid]
    rfl
  obtain ⟨envelope, hSigned⟩ := signDssePayload_profile t scheme .lifecycle _ (deterministicJson_ne_nil value)
    hSize rootPrivateKey
  refine ⟨envelope, ?_⟩
  simp only [signLifecycleFeed, t.strictJson_deterministicJson hPlain, bind, Except.bind, hSorted]
  exact hSigned

end

/-- A feed of one issuer without receipts. -/
def sampleFeed (sequence : Int) (generatedAt expiresAt : String) (status : IssuerStatus) (issuer : Bytes) : Json :=
  .obj [("schema_version", .str lifecycleSchemaVersion), ("sequence", .int sequence),
    ("generated_at", .str generatedAt), ("expires_at", .str expiresAt),
    ("issuer_keys", .arr [.obj [("keyid", .str (keyidOf .standard (.keyedDigest .standard) issuer)),
      ("jwk", (publicJwk (.keyedDigest .standard) issuer).sorted), ("status", .str status.value)]]),
    ("receipts", .arr [])]

/-- What the validator reads of its issuer. -/
def sampleIssuer (status : IssuerStatus) (issuer : Bytes) : Issuer :=
  { keyid := keyidOf .standard (.keyedDigest .standard) issuer
    jwk := (publicJwk (.keyedDigest .standard) issuer).sorted
    status }

/-- 2026-01-01 and a week later, as the feeds name them. -/
theorem time_sample (field : String) : time .standard (.str "2026-01-01T00:00:00Z") field =
      .ok ("2026-01-01T00:00:00Z", 1767225600000000) ∧
    time .standard (.str "2026-01-08T00:00:00Z") field = .ok ("2026-01-08T00:00:00Z", 1767830400000000) := by
  constructor <;> rfl

theorem plain_publicJwk {Key : Type} (scheme : Ed25519 Key) (key : Key) : (publicJwk scheme key).Plain 1 := by
  simp [publicJwk]

theorem sorted_publicJwk {Key : Type} (scheme : Ed25519 Key) (key : Key) : (publicJwk scheme key).sorted =
    .obj [("crv", .str "Ed25519"), ("kty", .str "OKP"), ("x", .str (b64urlNoPad (scheme.publicBytes key)))] := by
  simp only [publicJwk, Json.sorted, Json.sortedMembers, List.insertionSort_cons, List.insertionSort_nil,
    List.orderedInsert, String.reduceLE, if_true, if_false]

theorem readIssuers_sampleFeed (status : IssuerStatus) (issuer : Bytes) :
    readIssuers .standard [] [.obj [("keyid", .str (keyidOf .standard (.keyedDigest .standard) issuer)),
      ("jwk", (publicJwk (.keyedDigest .standard) issuer).sorted), ("status", .str status.value)]] =
    .ok [sampleIssuer status issuer] := by
  have hStatus : issuerStatus? (.str status.value) = some status ∧
      inStrings (.str status.value) (IssuerStatus.all.map IssuerStatus.value) = .ok true := by
    cases status <;> decide
  have hThumbprint := jwkThumbprint_publicJwk .standard (.keyedDigest .standard) issuer
  rw [← jwkThumbprint_sorted .standard (plain_publicJwk _ issuer)] at hThumbprint
  simp [readIssuers, readIssuer, Json.hasExactly, Json.member, Json.get?, require, hThumbprint, hStatus.1, hStatus.2,
    Except.ofOption, bind, Except.bind, pure, Except.pure, sampleIssuer]

/-- The sample feed of a week, as it is read. -/
def sampleFeedRead (sequence : Int) (status : IssuerStatus) (issuer : Bytes) : Feed :=
  ⟨sequence, "2026-01-01T00:00:00Z", "2026-01-08T00:00:00Z", 1767225600000000, 1767830400000000,
    [sampleIssuer status issuer], []⟩

/-- The sample feed of a week. -/
abbrev weekFeed (sequence : Int) (status : IssuerStatus) (issuer : Bytes) : Json :=
  sampleFeed sequence "2026-01-01T00:00:00Z" "2026-01-08T00:00:00Z" status issuer

theorem validate_weekFeed (sequence : Int) (hPositive : 1 ≤ sequence) (status : IssuerStatus) (issuer : Bytes) :
    validateLifecycleFeed .standard (weekFeed sequence status issuer) = .ok (sampleFeedRead sequence status issuer) := by
  have hGenerated := (time_sample "generated_at").1
  have hExpires := (time_sample "expires_at").2
  simp [validateLifecycleFeed, sampleFeed, Json.hasExactly, Json.member, Json.get?, require, Json.int?,
    Except.ofOption, hPositive, hGenerated, hExpires, boundedItems, readIssuers_sampleFeed, readRecords, bind,
    Except.bind, pure, Except.pure, sampleFeedRead]

theorem plain_weekFeed (sequence : Int) (hSmall : sequence.natAbs < 10) (status : IssuerStatus) (issuer : Bytes) :
    (weekFeed sequence status issuer).Plain readableDepth := by
  have hShort : sequence.natAbs < 10 ^ Json.maxDigits :=
    lt_of_lt_of_le (show sequence.natAbs < 10 ^ 1 from hSmall) (Nat.pow_le_pow_right (by decide) (by decide))
  have hJwk : (publicJwk (.keyedDigest .standard) issuer).sorted.Plain 29 :=
    (plain_publicJwk _ issuer).sorted.mono (by decide)
  simp [readableDepth, sampleFeed, hShort, hJwk]

theorem weekFeed_length (sequence : Int) (hDigit : (Json.intText sequence).length ≤ 1) (status : IssuerStatus)
    (issuer : Bytes) : (deterministicJson (weekFeed sequence status issuer)).length ≤ 1000000 := by
  have hLength := Bytes.utf8_length_le (weekFeed sequence status issuer).sorted.text
  have hText : (weekFeed sequence status issuer).sorted.text.length ≤ 1000 := by
    have hKey : (Json.stringText (b64urlNoPad ((Ed25519.keyedDigest .standard).publicBytes issuer))).length = 45 := by
      rw [stringText_safe, b64urlNoPad, String.toList_ofList, List.length_cons, List.length_append,
        Bytes.base64Url_length, Ed25519.publicBytes_length]
      · rfl
      · intro c hc
        rw [b64urlNoPad, String.toList_ofList] at hc
        exact (safe_base64Url _ c hc).1
    have hKeyid : (Json.stringText (keyidOf .standard (.keyedDigest .standard) issuer)).length = 45 := by
      rw [stringText_safe (safe_keyidOf issuer), List.length_cons, List.length_append, keyidOf_length]
      rfl
    have hStatus : (Json.stringText status.value).length ≤ 22 := by
      cases status <;> decide
    have hNames : ∀ name ∈ ["crv", "Ed25519", "kty", "OKP", "x", "keyid", "jwk", "status", "issuer_keys", "receipts",
        "schema_version", "1.0.0", "sequence", "generated_at", "expires_at", "2026-01-01T00:00:00Z",
        "2026-01-08T00:00:00Z"], (Json.stringText name).length ≤ 22 := by decide
    simp only [List.forall_mem_cons] at hNames
    simp only [sampleFeed, sorted_publicJwk, Json.sorted, Json.sortedMembers, Json.sortedItems,
      List.insertionSort_cons, List.insertionSort_nil, List.orderedInsert, String.reduceLE, if_true, if_false,
      Json.text, Json.membersText, Json.itemsText, List.length_append, List.length_cons, List.length_nil, hKey,
      hKeyid, lifecycleSchemaVersion]
    omega
  rw [deterministicJson]
  omega

theorem sorted_sampleIssuer (status : IssuerStatus) (issuer : Bytes) :
    (sampleIssuer status issuer).sorted = sampleIssuer status issuer := by
  simp only [Issuer.sorted, sampleIssuer, sorted_publicJwk, Json.sorted, Json.sortedMembers,
    List.insertionSort_cons, List.insertionSort_nil, List.orderedInsert, String.reduceLE, if_true]

/-- The sample feed in an envelope of its root. -/
theorem weekFeed_verified (root issuer : Bytes) (status : IssuerStatus) : ∃ envelope,
    verifyLifecycleEnvelope .standard (.keyedDigest .standard) envelope (publicJwk (.keyedDigest .standard) root) =
      .ok (sampleFeedRead 1 status issuer, deterministicJson (weekFeed 1 status issuer)) := by
  have hValid := validate_weekFeed 1 (by decide) status issuer
  obtain ⟨envelope, hSigned⟩ := @signLifecycleFeed_of_valid _ .standard (.keyedDigest .standard) _ _ root
    (plain_weekFeed 1 (by decide) status issuer) hValid (weekFeed_length 1 (by decide) status issuer)
  have hVerified := verifyLifecycleEnvelope_signed (Ed25519.keyedDigest_correct .standard)
    (plain_weekFeed 1 (by decide) status issuer) hValid hSigned
  have hSorted : (sampleFeedRead 1 status issuer).sorted = sampleFeedRead 1 status issuer := by
    rw [Feed.sorted, sampleFeedRead, List.map_singleton, sorted_sampleIssuer]
  exact ⟨_, hSorted ▸ hVerified⟩

end Lifecycle

end VouchSpec
