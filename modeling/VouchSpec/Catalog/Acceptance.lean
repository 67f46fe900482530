import VouchSpec.Catalog.Drafts
import VouchSpec.Catalog.Succession

/-! When the index that a build has assembled passes the checks of an index. -/

namespace VouchSpec

namespace Catalog

open Signing Inspection

/-- Distinct values stay as many under a function exactly when it tells them apart. -/
theorem length_dedup_map_iff {First Second : Type} [DecidableEq First] [DecidableEq Second] (change : First → Second)
    (values : List First) : (values.map change).dedup.length = values.dedup.length ↔
      ∀ first ∈ values, ∀ second ∈ values, change first = change second → first = second := by
  have hImage : (values.map change).toFinset = values.toFinset.image change := by
    ext value
    simp
  rw [← List.card_toFinset, ← List.card_toFinset, hImage, Finset.card_image_iff]
  simp [Set.InjOn]

/-- The owner of a draft's entry, within its bounds. -/
def Entry.Owned (entry : Entry) : Prop := 1 ≤ entry.repositoryOwner.toList.length ∧ entry.repositoryOwner.toList.length ≤ 100

theorem one_le_length {text : String} (h : text ≠ "") : 1 ≤ text.toList.length := by
  refine List.length_pos_iff.mpr ?_
  intro hNil
  exact h (String.toList_eq_nil_iff.mp hNil)

section
variable {u : Unicode} {seen : List String} {entry found : Entry} {entries : List Entry}

theorem mapM_str (texts : List String) : (texts.map Json.str).mapM Json.str? = some texts := by
  induction texts with
  | nil => rfl
  | cons text rest ih =>
      rw [List.map_cons, List.mapM_cons, ih]
      rfl

theorem readLabels_strings {labels : List String} (hSome : labels ≠ []) (hNodup : labels.Nodup)
    (hAllowed : ∀ label ∈ labels, label ∈ allowedLabels) : readLabels (.arr (labels.map Json.str)) = .ok labels := by
  have hItems : labels.map Json.str ≠ [] := by simpa using hSome
  have hHashable : (labels.map Json.str).all isHashable = true := by simp [isHashable]
  have hTexts := mapM_str labels
  simp only [readLabels, require_of hItems, require_of hHashable, hTexts, Except.ofOption,
    require_of (And.intro hNodup hAllowed), bind, Except.bind]
  rfl

theorem textField_json {field text : String} {maximum : Nat} {result : String}
    (hMember : entry.json.member field = .str text) :
    textField entry.json field maximum = .ok result ↔
      result = text ∧ 1 ≤ text.toList.length ∧ text.toList.length ≤ maximum := by
  simp only [textField, hMember, Json.str?, Except.ofOption, Except.bind_eq_ok_iff, require_eq_ok, exists_const,
    Except.pure_eq_ok_iff, Except.ok.injEq, exists_eq_left']
  tauto

/-- A formed entry is read back, if its id is new and its texts are short. -/
theorem readEntry_json (formed : entry.Formed) (owned : entry.Owned) :
    readEntry seen entry.json = .ok found ↔ found = entry ∧ entry.receiptId ∉ seen ∧ entry.Short := by
  obtain ⟨hId, hSkill, hRepository, hCommit, hPath, hSha, hLabels, hDistinct, hAllowed⟩ := formed
  have hExact : entry.json.hasExactly ["receipt_id", "repository_owner", "skill_name", "source_repository",
      "source_commit", "artifact_path", "artifact_sha256", "evidence_labels", "issued_at", "expires_at"] = true := rfl
  have hIdField : validateReceiptId (entry.json.member "receipt_id") = .ok entry.receiptId := by
    show validateReceiptId (.str entry.receiptId) = _
    simp only [validateReceiptId, Json.str?, Except.ofOption, require_of hId, bind, Except.bind]
    rfl
  have hCommitField : matchedText (entry.json.member "source_commit") = .ok entry.sourceCommit := rfl
  have hShaField : matchedText (entry.json.member "artifact_sha256") = .ok entry.artifactSha256 := rfl
  have hLabelsField : readLabels (entry.json.member "evidence_labels") = .ok entry.evidenceLabels :=
    readLabels_strings hLabels hDistinct hAllowed
  have hOwnerField := fun result => @textField_json entry "repository_owner" _ 100 result rfl
  have hSkillField := fun result => @textField_json entry "skill_name" _ 200 result rfl
  have hRepositoryField := fun result => @textField_json entry "source_repository" _ 2048 result rfl
  have hPathField := fun result => @textField_json entry "artifact_path" _ 1024 result rfl
  simp only [readEntry, hExact, hIdField, hOwnerField, hSkillField, hRepositoryField, hPathField, hCommitField, hShaField,
    hLabelsField, Except.bind_eq_ok_iff, require_eq_ok, exists_const, Except.ok.injEq, exists_eq_left', hCommit, hSha,
    true_and, Except.pure_eq_ok_iff]
  constructor
  · rintro ⟨hNew, _, ⟨rfl, -⟩, _, ⟨rfl, -, hSkillShort⟩, _, ⟨rfl, -, hRepositoryShort⟩, _, ⟨rfl, -, hPathShort⟩, rfl⟩
    exact ⟨rfl, hNew, hSkillShort, hRepositoryShort, hPathShort⟩
  · rintro ⟨rfl, hNew, short⟩
    exact ⟨hNew, _, ⟨rfl, owned⟩, _, ⟨rfl, one_le_length hSkill, short.skillName⟩, _,
      ⟨rfl, one_le_length hRepository, short.sourceRepository⟩, _,
      ⟨rfl, one_le_length hPath, short.artifactPath⟩, rfl⟩

/-- Formed entries are read back, if their ids are distinct and their texts are short. -/
theorem readEntries_json (hFormed : ∀ entry ∈ entries, entry.Formed ∧ entry.Owned) {result : List Entry} :
    readEntries seen (entries.map Entry.json) = .ok result ↔ result = entries ∧ (entries.map Entry.receiptId).Nodup ∧
      (∀ entry ∈ entries, entry.receiptId ∉ seen) ∧ ∀ entry ∈ entries, entry.Short := by
  induction entries generalizing seen result with
  | nil => simp [readEntries, eq_comm]
  | cons entry rest ih =>
      obtain ⟨formed, owned⟩ := hFormed entry List.mem_cons_self
      have hRest := fun other hOther => hFormed other (List.mem_cons_of_mem entry hOther)
      simp only [List.map_cons, readEntries, Except.bind_eq_ok_iff, Except.pure_eq_ok_iff, readEntry_json formed owned,
        ih hRest, List.nodup_cons, List.forall_mem_cons]
      constructor
      · rintro ⟨_, ⟨rfl, hNew, short⟩, _, ⟨rfl, hDistinct, hOthers, hShort⟩, rfl⟩
        refine ⟨rfl, ⟨?_, hDistinct⟩, ⟨hNew, fun other hOther => ?_⟩, short, hShort⟩
        · intro hTwice
          obtain ⟨other, hOther, hSame⟩ := List.mem_map.mp hTwice
          exact hOthers other hOther (hSame ▸ List.mem_cons_self)
        · exact fun hSeen => hOthers other hOther (List.mem_cons_of_mem _ hSeen)
      · rintro ⟨rfl, ⟨hOnce, hDistinct⟩, ⟨hNew, hOthers⟩, short, hShort⟩
        refine ⟨entry, ⟨rfl, hNew, short⟩, rest, ⟨rfl, hDistinct, fun other hOther => ?_, hShort⟩, rfl⟩
        intro hSeen
        rcases List.mem_cons.mp hSeen with hSame | hOld
        · exact hOnce (hSame ▸ List.mem_map_of_mem hOther)
        · exact hOthers other hOther hOld

/-- No owner is spelled in two ways that differ only in case. -/
def OneSpelling (u : Unicode) (owners : List String) : Prop :=
  ∀ first ∈ owners, ∀ second ∈ owners, u.casefold first = u.casefold second → first = second

/-- The index over formed entries is accepted exactly when their ids are distinct, their
texts short, and their owners spelled alike. -/
theorem draftIndex_accepted_iff (hFormed : ∀ entry ∈ entries, entry.Formed ∧ entry.Owned) (hCount : entries.length ≤ 100000)
    (generatedAt : String) :
    (∃ index, validateCatalogIndex (draftIndex u generatedAt (entries.map Entry.json)) = .ok index) ↔
      (entries.map Entry.receiptId).Nodup ∧ (∀ entry ∈ entries, entry.Short) ∧
        OneSpelling u (entries.map Entry.repositoryOwner) := by
  have hExact : (draftIndex u generatedAt (entries.map Entry.json)).hasExactly ["schema_version", "service", "stage",
      "generated_at", "entry_count", "repository_owner_count", "entries"] = true := rfl
  have hIdentity : (draftIndex u generatedAt (entries.map Entry.json)).member "schema_version" =
      .str catalogSchemaVersion ∧ (draftIndex u generatedAt (entries.map Entry.json)).member "service" =
        .str "VouchSpec" := ⟨rfl, rfl⟩
  have hStage : (draftIndex u generatedAt (entries.map Entry.json)).member "stage" =
      .str "A_PUBLIC_ARTIFACT_INDEX" := rfl
  have hItems : ∀ error, Lifecycle.boundedItems ((draftIndex u generatedAt (entries.map Entry.json)).member "entries") 0
      100000 error = .ok (entries.map Entry.json) := by
    intro error
    have hLength : 0 ≤ (entries.map Entry.json).length ∧ (entries.map Entry.json).length ≤ 100000 := by
      rw [List.length_map]
      omega
    show Lifecycle.boundedItems (.arr (entries.map Entry.json)) 0 100000 error = _
    rw [Lifecycle.boundedItems, require_of hLength]
    rfl
  have hFolded : foldedOwners u (entries.map Entry.json) =
      ((entries.map Entry.repositoryOwner).map u.casefold).dedup := by
    rw [foldedOwners, List.map_map, List.map_map]
    rfl
  have hEntryCount : equalsCount ((draftIndex u generatedAt (entries.map Entry.json)).member "entry_count")
      entries.length = true := by
    show equalsCount (.int (entries.map Entry.json).length) entries.length = true
    simp [equalsCount]
  have hOwnerCount : equalsCount ((draftIndex u generatedAt (entries.map Entry.json)).member "repository_owner_count")
      (entries.map Entry.repositoryOwner).dedup.length = true ↔ OneSpelling u (entries.map Entry.repositoryOwner) := by
    show equalsCount (.int (foldedOwners u (entries.map Entry.json)).length) _ = true ↔ _
    rw [hFolded, OneSpelling, ← length_dedup_map_iff, equalsCount, decide_eq_true_eq]
    exact Int.ofNat_inj
  simp only [validateCatalogIndex, hExact, hIdentity, hStage, hItems, readEntries_json hFormed, Except.bind_eq_ok_iff,
    require_eq_ok, exists_const, Except.pure_eq_ok_iff, Except.ok.injEq, exists_eq_left', true_and]
  constructor
  · rintro ⟨index, _, ⟨rfl, hDistinct, -, hShort⟩, ⟨-, hOwners⟩, -⟩
    exact ⟨hDistinct, hShort, hOwnerCount.mp hOwners⟩
  · rintro ⟨hDistinct, hShort, hOwners⟩
    exact ⟨_, entries, ⟨rfl, hDistinct, by simp, hShort⟩, ⟨hEntryCount, hOwnerCount.mpr hOwners⟩, rfl⟩

/-- The sorted entries of an index are entries of it. -/
theorem exists_sorted (u : Unicode) (entries : List Entry) :
    ∃ sorted : List Entry, sorted.Perm entries ∧ sortEntries u (entries.map Entry.json) = sorted.map Entry.json := by
  refine ⟨entries.insertionSort fun first second => entryKey u first.json ≤ entryKey u second.json,
    List.perm_insertionSort _ _, ?_⟩
  exact (List.map_insertionSort (r := fun first second => entryKey u first.json ≤ entryKey u second.json)
    (s := fun first second => entryKey u first ≤ entryKey u second) Entry.json entries fun _ _ _ _ => Iff.rfl).symm

end

section
variable {u : Unicode} {urls : UrlTools} {t : Toolkit}

theorem sourceField_eq_ok {source : Json} {field text : String} (h : sourceField source field = .ok text) : text ≠ "" := by
  simp only [sourceField, Except.bind_eq_ok_iff, require_eq_ok, exists_const, Except.pure_eq_ok_iff] at h
  obtain ⟨_, -, hSome, rfl⟩ := h
  exact hSome

theorem readSources_eq_ok {seen : List (String × String × String)} {values : List Json} {sources : List Source}
    (h : readSources u urls seen values = .ok sources) :
    sources.length = values.length ∧ ∀ source ∈ sources, source.repositoryOwner ≠ "" := by
  induction values generalizing seen sources with
  | nil =>
      obtain rfl : [] = sources := Except.ok.inj h
      simp
  | cons value rest ih =>
      simp only [readSources, readSource, Except.bind_eq_ok_iff, require_eq_ok, exists_const, Except.pure_eq_ok_iff] at h
      obtain ⟨_, ⟨-, owner, hOwner, _, -, _, -, _, -, _, -, -, -, rfl⟩, others, hOthers, rfl⟩ := h
      obtain ⟨hLength, hRest⟩ := ih hOthers
      refine ⟨by simp [hLength], ?_⟩
      rw [List.forall_mem_cons]
      exact ⟨sourceField_eq_ok hOwner, hRest⟩

/-- A manifest that is loaded has between 1 and 100 sources, each with an owner. -/
theorem loadSourceManifest_eq_ok {bytes : Bytes} {sources : List Source}
    (h : loadSourceManifest u urls t bytes = .ok sources) :
    1 ≤ sources.length ∧ sources.length ≤ 100 ∧ ∀ source ∈ sources, source.repositoryOwner ≠ "" := by
  simp only [loadSourceManifest, Except.bind_eq_ok_iff, require_eq_ok, exists_const] at h
  obtain ⟨manifest, -, -, values, hValues, hSources⟩ := h
  obtain ⟨hLength, hOwners⟩ := readSources_eq_ok hSources
  have hArray := boundedItems_eq_ok hValues
  rw [hArray, Lifecycle.boundedItems] at hValues
  simp only [Except.bind_eq_ok_iff, require_eq_ok, exists_const] at hValues
  rw [hLength]
  exact ⟨hValues.1.1, hValues.1.2, hOwners⟩

end

section
variable {t : Toolkit} {lib : Libraries} {urls : UrlTools} {runtime : Runtime} {clock : Clock}

/-- The receipts of the sources. -/
def draftReceipts (t : Toolkit) (lib : Libraries) (urls : UrlTools) (runtime : Runtime) (clock : Clock)
    (checkoutOf : Source → Except Raised Checkout) (timestamp : Int) (sources : List Source) :
    Except Raised (List Json) :=
  sources.mapM fun source => checkoutOf source >>= draftReceipt t lib urls runtime clock timestamp

/-- What the loop over the sources has collected. -/
structure CollectedEntries (sources : List Source) (receipts : List Json) (entries : List Entry) : Prop where
  owners : entries.map Entry.repositoryOwner = sources.map Source.repositoryOwner
  ids : entries.map Entry.receiptId = receipts.map fun receipt => entryText receipt "receipt_id"
  formed : ∀ entry ∈ entries, entry.Formed
  short : (∀ entry ∈ entries, entry.Short) ↔ ∀ receipt ∈ receipts, ShortTexts receipt

theorem entryText_of_item {receipt : Json} {name text : String} (h : item receipt name = .ok (.str text)) :
    entryText receipt name = text := by
  cases receipt with
  | obj members =>
      have hGet : (Json.obj members).get? name = some (.str text) := Except.ofOption_eq_ok_iff.mp h
      rw [entryText, Json.member, hGet]
      rfl
  | _ => cases h

theorem collectDrafts_of_receipts {checkoutOf : Source → Except Raised Checkout} {timestamp : Int} {sources : List Source}
    {receipts : List Json}
    (h : draftReceipts t lib urls runtime clock checkoutOf timestamp sources = .ok receipts) :
    ∃ entries, CollectedEntries sources receipts entries ∧
      collectDrafts t lib urls runtime clock checkoutOf timestamp sources = .ok (receipts.zip (entries.map Entry.json)) := by
  induction sources generalizing receipts with
  | nil =>
      obtain rfl : [] = receipts := Except.ok.inj h
      exact ⟨[], ⟨rfl, rfl, by simp, by simp⟩, rfl⟩
  | cons source rest ih =>
      rw [draftReceipts, List.mapM_cons] at h
      simp only [Except.bind_eq_ok_iff, Except.pure_eq_ok_iff] at h
      obtain ⟨receipt, ⟨checkout, hCheckout, hReceipt⟩, others, hOthers, rfl⟩ := h
      obtain ⟨entries, collected, hRest⟩ := ih hOthers
      obtain ⟨entry, hOwner, agrees, formed, hShort⟩ := formed_of_receipt hReceipt source.repositoryOwner
      refine ⟨entry :: entries, ⟨?_, ?_, ?_, ?_⟩, ?_⟩
      · rw [List.map_cons, List.map_cons, hOwner, collected.owners]
      · rw [List.map_cons, List.map_cons, collected.ids, entryText_of_item (valueAt_one.mp agrees.receiptId)]
      · exact List.forall_mem_cons.mpr ⟨formed, collected.formed⟩
      · rw [List.forall_mem_cons, List.forall_mem_cons, hShort, collected.short]
      · simp only [collectDrafts, hCheckout, hReceipt, draftEntry_of_agrees agrees hOwner, hRest, bind, Except.bind]
        rfl

/-- What a build comes to, by the entries that it has collected. -/
theorem build_iff_collected (checkoutOf : Source → Except Raised Checkout) (manifest : Bytes) (timestamp : Int)
    {sources : List Source} (hSources : loadSourceManifest lib.toUnicode urls t manifest = .ok sources)
    (hOwners : ∀ source ∈ sources, source.repositoryOwner.toList.length ≤ 100) {receipts : List Json}
    {entries : List Entry} (collected : CollectedEntries sources receipts entries)
    (hDrafts : collectDrafts t lib urls runtime clock checkoutOf timestamp sources =
      .ok (receipts.zip (entries.map Entry.json))) :
    (∃ built, buildCatalogDrafts t lib urls runtime clock checkoutOf manifest false timestamp = .ok built) ↔
      (entries.map Entry.receiptId).Nodup ∧ (∀ entry ∈ entries, entry.Short) ∧
        OneSpelling lib.toUnicode (sources.map Source.repositoryOwner) := by
  obtain ⟨hSome, hCount, hOwned⟩ := loadSourceManifest_eq_ok hSources
  obtain ⟨sorted, hPerm, hSorted⟩ := exists_sorted lib.toUnicode entries
  have hLength : entries.length = sources.length := by
    simpa using congrArg List.length collected.owners
  have hSame : receipts.length = entries.length := by
    simpa using congrArg List.length collected.ids.symm
  have hEntries : (receipts.zip (entries.map Entry.json)).map Prod.snd = entries.map Entry.json :=
    List.map_snd_zip (by rw [List.length_map]; omega)
  have hFormed : ∀ entry ∈ sorted, entry.Formed ∧ entry.Owned := by
    intro entry hEntry
    have hMember := hPerm.mem_iff.mp hEntry
    have hOwner : entry.repositoryOwner ∈ sources.map Source.repositoryOwner :=
      collected.owners ▸ List.mem_map_of_mem hMember
    obtain ⟨source, hSource, hName⟩ := List.mem_map.mp hOwner
    refine ⟨collected.formed entry hMember, ?_⟩
    rw [Entry.Owned, ← hName]
    exact ⟨one_le_length (hOwned source hSource), hOwners source hSource⟩
  have hAccepted := draftIndex_accepted_iff (u := lib.toUnicode) hFormed (by rw [hPerm.length_eq]; omega)
    (t.timestamp timestamp)
  have hHead : ∃ first, (sorted.map Entry.json).head? = some first := by
    cases hShape : sorted with
    | nil =>
        rw [hShape] at hPerm
        have hNone := hPerm.length_eq
        rw [List.length_nil] at hNone
        omega
    | cons first more => exact ⟨first.json, rfl⟩
  obtain ⟨first, hFirst⟩ := hHead
  have hBuilt : (∃ built, buildCatalogDrafts t lib urls runtime clock checkoutOf manifest false timestamp = .ok built) ↔
      ∃ index, validateCatalogIndex (draftIndex lib.toUnicode (t.timestamp timestamp) (sorted.map Entry.json)) =
        .ok index := by
    simp only [buildCatalogDrafts, hSources, hDrafts, hEntries, hSorted, hFirst, Except.bind_eq_ok_iff, require_eq_ok,
      exists_const, Except.pure_eq_ok_iff, Except.ok.injEq, exists_eq_left', true_and, Except.ofOption_eq_ok_iff]
    constructor
    · rintro ⟨_, index, hIndex, -⟩
      exact ⟨index, hIndex⟩
    · rintro ⟨index, hIndex⟩
      exact ⟨_, index, hIndex, first, rfl, rfl⟩
  have hOwnersSame : ∀ owner, owner ∈ sorted.map Entry.repositoryOwner ↔ owner ∈ sources.map Source.repositoryOwner := by
    intro owner
    rw [← collected.owners]
    exact (hPerm.map _).mem_iff
  rw [hBuilt, hAccepted, OneSpelling, OneSpelling]
  simp only [hOwnersSame, hPerm.mem_iff, (hPerm.map Entry.receiptId).nodup_iff]

/-- A build keeps the drafts of an accepted manifest, with the receipts that the skills
have come to, exactly when no owner is spelled in two ways and their texts are short. -/
theorem build_kept_iff (checkoutOf : Source → Except Raised Checkout) (manifest : Bytes) (timestamp : Int)
    {sources : List Source} (hSources : loadSourceManifest lib.toUnicode urls t manifest = .ok sources)
    {receipts : List Json}
    (hReceipts : draftReceipts t lib urls runtime clock checkoutOf timestamp sources = .ok receipts)
    (hDistinct : (receipts.map fun receipt => entryText receipt "receipt_id").Nodup)
    (hOwners : ∀ source ∈ sources, source.repositoryOwner.toList.length ≤ 100) :
    (∃ built, buildCatalogDrafts t lib urls runtime clock checkoutOf manifest false timestamp = .ok built) ↔
      OneSpelling lib.toUnicode (sources.map Source.repositoryOwner) ∧ ∀ receipt ∈ receipts, ShortTexts receipt := by
  obtain ⟨entries, collected, hDrafts⟩ := collectDrafts_of_receipts hReceipts
  rw [build_iff_collected checkoutOf manifest timestamp hSources hOwners collected hDrafts, collected.ids, collected.short]
  exact ⟨fun h => ⟨h.2.2, h.2.1⟩, fun h => ⟨hDistinct, h.2, h.1⟩⟩

end

/-- `urlsplit` of an address at `https://github.com`. -/
def githubUrls : UrlTools where
  urlsplit url := .ok
    { scheme := "https", netloc := "github.com", path := String.ofList (url.toList.drop 18), query := "", fragment := ""
      username := none, password := none, hostname := some "github.com", port := some none }
  urlunsplit scheme netloc path := scheme ++ "://" ++ netloc ++ path

def sampleCommit : String := "0123456789abcdef0123456789abcdef01234567"

def sampleRoot : List String := ["/", "srv", "cache"]

/-- A clean checkout in which a small skill lies. -/
def sampleGit : Git where
  topLevel := .ok sampleRoot
  head := .ok sampleCommit
  tracked artifactRelative := .ok (Bytes.utf8 (trackedPath artifactRelative "SKILL.md").toList ++ [0])
  blobs _ := .ok (Bytes.ascii "ab01 blob 43" ++ [10] ++ (Bytes.utf8 Inspection.Sample.skillText.toList ++ [10]))
  staged _ := .ok "100644 ab01 0 SKILL.md"
  origin := .ok "https://github.com/octo/demo"

def sampleCheckout (names : List String) : Checkout where
  git := sampleGit
  repositoryRoot := .ok sampleRoot
  artifact := sampleRoot ++ names
  first := some (Inspection.Sample.treeOf Inspection.Sample.skillText)
  second := some (Inspection.Sample.treeOf Inspection.Sample.skillText)
  third := some (Inspection.Sample.treeOf Inspection.Sample.skillText)

def sampleSource (names : List String) : Source :=
  { repositoryOwner := "Octo", repository := "https://github.com/octo/demo", commit := sampleCommit
    artifactPath := PosixPath.join names }

/-- A manifest of one source. -/
def sampleManifest (names : List String) : Json :=
  .obj [("schema_version", .str "1.0.0"), ("selection", .str "demo"),
    ("sources", .arr [.obj [("artifact_path", .str (PosixPath.join names)), ("commit", .str sampleCommit),
      ("repository", .str "https://github.com/octo/demo"), ("repository_owner", .str "Octo")]])]

/-- The manifest as it is written. -/
def sampleManifestBytes (names : List String) : Bytes := Bytes.utf8 (sampleManifest names).text

section
variable (names : List String)

theorem load_sampleManifest (hNames : PosixPath.join names ≠ "") :
    loadSourceManifest Inspection.Sample.libraries.toUnicode githubUrls Toolkit.standard (sampleManifestBytes names) =
      .ok [sampleSource names] := by
  have hPlain : (sampleManifest names).Plain readableDepth := by
    simp [sampleManifest, readableDepth]
  have hRead : Toolkit.standard.strictJson (sampleManifestBytes names) "invalid_source_manifest" =
      .ok (sampleManifest names) := by
    have hLoads := Toolkit.standard.loads_text hPlain Blank.none
    rw [List.append_nil] at hLoads
    rw [Toolkit.strictJson, sampleManifestBytes, hLoads]
    rfl
  have hIdentity : repositoryIdentity githubUrls "https://github.com/octo/demo" = .ok ("octo", "octo--demo") := by
    decide +kernel
  have hOwner : Inspection.Sample.libraries.casefold "Octo" = Inspection.Sample.libraries.casefold "octo" := by
    decide +kernel
  have hField : ∀ {value : Json} {field text : String}, value.member field = .str text → text ≠ "" →
      sourceField value field = .ok text := by
    intro value field text hMember hText
    rw [sourceField, hMember]
    simp only [Json.str?, Except.ofOption, require_of hText, bind, Except.bind]
    rfl
  have hSource : ∀ {value : Json}, value.hasExactly ["repository_owner", "repository", "commit", "artifact_path"] = true →
      value.member "repository_owner" = .str "Octo" → value.member "repository" = .str "https://github.com/octo/demo" →
      value.member "commit" = .str sampleCommit → value.member "artifact_path" = .str (PosixPath.join names) →
      readSource Inspection.Sample.libraries.toUnicode githubUrls [] value = .ok (sampleSource names) := by
    intro value hExact hFirst hSecond hThird hFourth
    simp only [readSource, require_of hExact, hField hFirst (by decide), hField hSecond (by decide),
      hField hThird (by decide), hField hFourth hNames, hIdentity, require_of hOwner, bind, Except.bind]
    rfl
  simp only [loadSourceManifest, hRead, bind, Except.bind]
  show readSources _ _ [] _ = _
  simp only [readSources, bind, Except.bind]
  rw [hSource rfl rfl rfl rfl rfl]
  rfl

theorem blobs_sample {p : Platform} {snapshot : Snapshot} (artifactRelative : String)
    (hFiles : snapshot.files = [fileData p "SKILL.md" (Bytes.utf8 Inspection.Sample.skillText.toList)]) :
    verifyCommitBlobs sampleGit snapshot artifactRelative = .ok () := by
  rw [verifyCommitBlobs, hFiles]
  rfl

theorem provenance_sample (p : Platform) (times : CaptureTimes)
    (hPath : 0 ∉ Bytes.utf8 (trackedPath (PosixPath.mk "" names).asPosix "SKILL.md").toList) :
    verifyGitProvenance Inspection.Sample.libraries.toUnicode githubUrls sampleGit
        (Inspection.Sample.snapshotAt p (sampleRoot ++ names) times Inspection.Sample.skillText) (.ok sampleRoot) =
      .ok { repositoryUrl := "https://github.com/octo/demo", commit := sampleCommit
            artifactPath := (PosixPath.mk "" names).asPosix } := by
  have hDrop : (sampleRoot ++ names).drop sampleRoot.length = names := List.drop_left
  have hCommit : Inspection.Sample.libraries.lower sampleCommit = sampleCommit := by decide +kernel
  have hMatches : matchesCommit sampleCommit = true := by decide +kernel
  have hRemote : sanitizeRemote Inspection.Sample.libraries.toUnicode githubUrls "https://github.com/octo/demo" =
      .ok "https://github.com/octo/demo" := by decide +kernel
  have hSome : "https://github.com/octo/demo" ≠ "" := by decide
  have hStaged : (Lines.split "100644 ab01 0 SKILL.md".toList).all (fun line => !("160000 ".toList.isPrefixOf line)) = true := by
    decide +kernel
  have hFiles : (Inspection.Sample.snapshotAt p (sampleRoot ++ names) times Inspection.Sample.skillText).files =
      [fileData p "SKILL.md" (Bytes.utf8 Inspection.Sample.skillText.toList)] := rfl
  have hRoot : (Inspection.Sample.snapshotAt p (sampleRoot ++ names) times Inspection.Sample.skillText).root =
      sampleRoot ++ names := rfl
  have hPathSome : Bytes.utf8 (trackedPath (PosixPath.mk "" names).asPosix "SKILL.md").toList ≠ [] := by
    intro hNone
    have hUtf8 : Bytes.utf8 [] = [] := rfl
    have hEmpty := Bytes.utf8_injective (hNone.trans hUtf8.symm)
    rw [trackedPath] at hEmpty
    split at hEmpty <;> simp at hEmpty
  have hTracked : Except.ofOption (provenanceFailed "tracked Git paths were not UTF-8")
      ((((Bytes.utf8 (trackedPath (PosixPath.mk "" names).asPosix "SKILL.md").toList ++ [0]).splitOn 0).filter
        fun part => part ≠ []).mapM Bytes.decodeUtf8) =
        .ok [(trackedPath (PosixPath.mk "" names).asPosix "SKILL.md").toList] := by
    rw [List.splitOn_append_cons_self_of_not_mem hPath, List.splitOn_nil,
      List.filter_cons_of_pos (by simpa using hPathSome)]
    simp [Bytes.decodeUtf8_utf8, Except.ofOption]
  simp only [verifyGitProvenance, Except.bind_eq_ok_iff, require_eq_ok, exists_const, Except.pure_eq_ok_iff]
  refine ⟨sampleRoot, rfl, List.prefix_append _ _, _, rfl, rfl, _, rfl, ?_, _, rfl,
    [(trackedPath (PosixPath.mk "" names).asPosix "SKILL.md").toList], ?_, ?_, (), ?_, _, rfl, hStaged, _, rfl, _,
    hRemote, hSome, ?_⟩
  · rw [hCommit]
    exact hMatches
  · rw [hRoot, hDrop]
    exact hTracked
  · rw [hRoot, hDrop, hFiles]
    simp [fileData]
  · exact blobs_sample _ hFiles
  · rw [hRoot, hDrop, hCommit]

/-- The receipt of the small skill where it lies in the checkout. -/
theorem receipt_sample {names : List String} (hLast : names.getLast? = some "demo")
    (hPath : 0 ∉ Bytes.utf8 (trackedPath (PosixPath.mk "" names).asPosix "SKILL.md").toList) :
    ∃ receipt, draftReceipt Toolkit.standard Inspection.Sample.libraries githubUrls Inspection.Sample.runtime
        Inspection.Sample.clock 1767225600000000 (sampleCheckout names) = .ok receipt ∧
      valueAt receipt ["artifact", "root_directory"] = .ok (.str "demo") ∧
      valueAt receipt ["provenance", "source_repository"] = .ok (.str "https://github.com/octo/demo") ∧
      valueAt receipt ["provenance", "artifact_path"] = .ok (.str (PosixPath.mk "" names).asPosix) := by
  have hPlace : (sampleRoot ++ names).getLast? = some "demo" := by
    rw [List.getLast?_append, hLast]
    rfl
  have hTime : normalizeTime Toolkit.standard (some (Toolkit.standard.timestamp 1767225600000000))
      Inspection.Sample.clock.now = .ok 1767225600000000 := by
    have hLength : (Toolkit.standard.timestamp 1767225600000000).toList.length ≤ 64 := by decide +kernel
    have hNormal : Platform.normalized (Toolkit.standard.timestamp 1767225600000000) =
        Toolkit.standard.isoformat 1767225600 ++ "+00:00" := Platform.normalized_append_z _
    simp only [normalizeTime, require_of hLength, hNormal, Toolkit.standard.fromisoformat_isoformat, bind, Except.bind]
    rfl
  obtain ⟨core, hCore, hReceipt⟩ := @Inspection.Sample.inspectSkill_at Toolkit.standard Inspection.Sample.runtime
    Inspection.Sample.clock _ hPlace _ _ hTime 30 (by decide)
    (some { repositoryUrl := "https://github.com/octo/demo", commit := sampleCommit
            artifactPath := (PosixPath.mk "" names).asPosix }) true (by simp)
  obtain ⟨digest, name, -, quotes⟩ := quotes_of_core hCore
  have hDirectory := quotes.rootDirectory
  rw [Inspection.Sample.rootName_snapshotAt hPlace] at hDirectory
  refine ⟨_, ?_, hDirectory, quotes.sourceRepository, quotes.artifactPath⟩
  have hDigest := quotes.artifactSha256
  simp only [valueAt_cons, valueAt_one] at hDigest
  simp only [draftReceipt, inspectGitSkill, Except.bind_eq_ok_iff, require_eq_ok, exists_const, Except.pure_eq_ok_iff]
  obtain ⟨artifact, hArtifact, digestItem, hDigestItem, hSha⟩ := hDigest
  exact ⟨_, Inspection.Sample.collect_at _ _ hPlace, _, provenance_sample names _ _ hPath, _,
    Inspection.Sample.collect_at _ _ hPlace, rfl, _, hReceipt, artifact, hArtifact, digestItem, hDigestItem, _, hSha, rfl, rfl⟩

end

/-- The build over the manifest of one source, in its checkout. -/
def sampleBuild (names : List String) : Except Raised Collected :=
  buildCatalogDrafts Toolkit.standard Inspection.Sample.libraries githubUrls Inspection.Sample.runtime
    Inspection.Sample.clock (fun _ => .ok (sampleCheckout names)) (sampleManifestBytes names) false 1767225600000000

theorem draftReceipts_sample {names : List String} {receipt : Json}
    (h : draftReceipt Toolkit.standard Inspection.Sample.libraries githubUrls Inspection.Sample.runtime
      Inspection.Sample.clock 1767225600000000 (sampleCheckout names) = .ok receipt) :
    draftReceipts Toolkit.standard Inspection.Sample.libraries githubUrls Inspection.Sample.runtime
      Inspection.Sample.clock (fun _ => .ok (sampleCheckout names)) 1767225600000000 [sampleSource names] =
        .ok [receipt] := by
  simp only [draftReceipts, List.mapM_cons, List.mapM_nil, h, bind, Except.bind]
  rfl

theorem owner_sampleSource (names : List String) :
    ∀ source ∈ [sampleSource names], source.repositoryOwner.toList.length ≤ 100 := by
  intro source hSource
  rw [List.mem_singleton.mp hSource]
  show "Octo".toList.length ≤ 100
  decide

/-- The drafts of a source with a short path are kept. -/
theorem build_kept_demo : ∃ built, sampleBuild ["demo"] = .ok built := by
  obtain ⟨receipt, hReceipt, hDirectory, hRepository, hPath⟩ := @receipt_sample ["demo"] rfl (by decide +kernel)
  refine (build_kept_iff _ _ _ (load_sampleManifest _ (by decide +kernel)) (draftReceipts_sample hReceipt) (by simp)
    (owner_sampleSource _)).mpr ⟨?_, ?_⟩
  · intro first hFirst second hSecond _
    rw [List.mem_singleton.mp hFirst, List.mem_singleton.mp hSecond]
  · intro found hFound
    obtain rfl := List.mem_singleton.mp hFound
    refine ⟨?_, ?_, ?_⟩
    · intro _ directory _ _ hOther
      obtain rfl := Json.str.inj (Except.ok.inj (hDirectory.symm.trans hOther))
      decide +kernel
    · intro url hOther
      obtain rfl := Json.str.inj (Except.ok.inj (hRepository.symm.trans hOther))
      decide +kernel
    · intro path hOther
      obtain rfl := Json.str.inj (Except.ok.inj (hPath.symm.trans hOther))
      decide +kernel

/-- Eleven directories with names of a hundred characters, and a skill in the last. -/
def deepNames : List String := List.replicate 11 (String.ofList (List.replicate 100 'a')) ++ ["demo"]

def deepText : List Char :=
  List.intercalate ['/'] (List.replicate 11 (List.replicate 100 'a') ++ [['d', 'e', 'm', 'o']])

theorem deepNames_ne_nil : deepNames ≠ [] := by simp [deepNames]

theorem toList_deepNames : (PosixPath.mk "" deepNames).asPosix.toList = deepText := by
  have hMap : deepNames.map String.toList = List.replicate 11 (List.replicate 100 'a') ++ [['d', 'e', 'm', 'o']] := by
    simp only [deepNames, List.map_append, List.map_replicate, String.toList_ofList]
    rfl
  rw [PosixPath.asPosix, if_neg fun h => deepNames_ne_nil h.2, String.empty_append, PosixPath.join, hMap,
    String.toList_ofList, deepText]

theorem length_deepText : 1024 < deepText.length := by decide +kernel

theorem tracked_deepNames : 0 ∉ Bytes.utf8 (trackedPath (PosixPath.mk "" deepNames).asPosix "SKILL.md").toList := by
  have hDot : (PosixPath.mk "" deepNames).asPosix ≠ "." := by
    intro hSame
    have hLength := length_deepText
    rw [← toList_deepNames, hSame] at hLength
    exact absurd hLength (by decide)
  have hAscii : (deepText ++ ("/".toList ++ "SKILL.md".toList)).all (fun c => 1 ≤ c.toNat && c.toNat < 128) = true := by
    decide +kernel
  rw [trackedPath, if_pos hDot, String.toList_append, String.toList_append, toList_deepNames, List.append_assoc]
  exact Bytes.zero_not_mem_utf8 hAscii

theorem join_deepNames : PosixPath.join deepNames ≠ "" := by
  refine PosixPath.join_ne_empty deepNames_ne_nil ?_
  intro name hName
  simp only [deepNames, List.mem_append, List.mem_replicate, List.mem_singleton] at hName
  rcases hName with ⟨-, rfl⟩ | rfl
  · simp
  · decide

/-- A manifest of one source at a long path is accepted and its skill has a receipt, but
the build throws the draft away. -/
theorem deep_path_thrown_away : ∃ receipts,
    loadSourceManifest Inspection.Sample.libraries.toUnicode githubUrls Toolkit.standard (sampleManifestBytes deepNames) =
        .ok [sampleSource deepNames] ∧
      draftReceipts Toolkit.standard Inspection.Sample.libraries githubUrls Inspection.Sample.runtime
        Inspection.Sample.clock (fun _ => .ok (sampleCheckout deepNames)) 1767225600000000 [sampleSource deepNames] =
          .ok receipts ∧
      (receipts.map fun receipt => entryText receipt "receipt_id").Nodup ∧
      (∀ source ∈ [sampleSource deepNames], source.repositoryOwner.toList.length ≤ 100) ∧
      ¬ ∃ built, sampleBuild deepNames = .ok built := by
  obtain ⟨receipt, hReceipt, -, -, hPath⟩ := @receipt_sample deepNames (by simp [deepNames]) tracked_deepNames
  have hLoaded := load_sampleManifest deepNames join_deepNames
  have hReceipts := draftReceipts_sample hReceipt
  refine ⟨[receipt], hLoaded, hReceipts, by simp, owner_sampleSource _, ?_⟩
  obtain ⟨entries, collected, hDrafts⟩ := collectDrafts_of_receipts hReceipts
  intro hBuilt
  obtain ⟨-, hShort, -⟩ := (build_iff_collected _ _ _ hLoaded (owner_sampleSource _) collected hDrafts).mp hBuilt
  have hLength := (collected.short.mp hShort receipt List.mem_cons_self).artifactPath _ hPath
  rw [toList_deepNames] at hLength
  exact absurd length_deepText (Nat.not_lt.mpr hLength)

end Catalog

end VouchSpec
