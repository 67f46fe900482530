import VouchSpec.Library.JsonSchema
import VouchSpec.Commerce.Contract

/-! The schema of a validation request, and its language: the one that the parser
accepts. -/

namespace VouchSpec

namespace RequestSchema

open Schema

def isOwnerCharacter (c : Char) : Bool := Pattern.isAlnum c || Pattern.isHyphen c

def isRepositoryCharacter (c : Char) : Bool :=
  Pattern.isAlnum c || Pattern.isUnderscore c || Pattern.isDot c || Pattern.isHyphen c

def isSegmentCharacter (c : Char) : Bool :=
  Pattern.isAlnum c || Pattern.isDot c || Pattern.isUnderscore c || Pattern.isHyphen c

/-- `[A-Za-z0-9_-]{8,64}`. -/
def deliveryIdPattern : Regex := .times 8 64 (.one Bytes.isUrlSafe)

/-- `[A-Za-z0-9][A-Za-z0-9-]{0,38}`. -/
def ownerPattern : Regex := .seq (.one Pattern.isAlnum) (.times 0 38 (.one isOwnerCharacter))

/-- `[A-Za-z0-9][A-Za-z0-9_.-]{0,99}`. -/
def repositoryPattern : Regex := .seq (.one Pattern.isAlnum) (.times 0 99 (.one isRepositoryCharacter))

/-- `[0-9a-f]{40}`. -/
def commitPattern : Regex := .times 40 40 (.one Bytes.isHexDigit)

/-- `[A-Za-z0-9][A-Za-z0-9._-]{0,99}`. -/
def segmentPattern : Regex := .seq (.one Pattern.isAlnum) (.times 0 99 (.one isSegmentCharacter))

/-- A segment, and up to 31 more of them after slashes. -/
def skillPathPattern : Regex :=
  .seq segmentPattern (.times 0 31 (.seq (.one fun c => c = '/') segmentPattern))

def sourceProperties : List (String × Schema) :=
  [("commit", matching commitPattern), ("host", const (.str "github.com")), ("owner", matching ownerPattern),
    ("repository", matching repositoryPattern),
    ("skill_path", allOf [type [.string], minLength 1, maxLength 1024, pattern skillPathPattern])]

def priceProperties : List (String × Schema) :=
  [("amount_minor", integer 0 1000000), ("currency", const (.str "usd"))]

def properties : List (String × Schema) :=
  [("delivery_id", matching deliveryIdPattern),
    ("max_price", record (priceProperties.map Prod.fst) priceProperties),
    ("operation", const (.str "fresh_public_static_validation")),
    ("profile", const (.str "vouchspec-public-static-v1")), ("schema_version", const (.str "1.0.0")),
    ("source", record (sourceProperties.map Prod.fst) sourceProperties)]

/-- `fresh-validation-request.schema.json`. -/
def schema : Schema := record (properties.map Prod.fst) properties

/-- A path of segments, as the pattern describes it. -/
structure SkillPath (characters : List Char) (parts : List (List Char)) : Prop where
  present : parts ≠ []
  few : parts.length ≤ 32
  segments : ∀ part ∈ parts, Pattern.skillSegment part = true
  joined : characters = List.intercalate ['/'] parts

theorem deliveryId_iff {text : String} :
    text.toList ∈ deliveryIdPattern.language ↔ Pattern.deliveryId text = true := by
  rw [deliveryIdPattern, Regex.mem_times_one]
  simp [Pattern.deliveryId, Pattern.fullmatch, and_assoc]

theorem commit_iff {text : String} : text.toList ∈ commitPattern.language ↔ Pattern.commit text = true := by
  rw [commitPattern, Regex.mem_times_one]
  simp [Pattern.commit, Pattern.fullmatch, and_assoc]

/-- A leading letter or digit before characters of a class. -/
theorem startsWith_iff {accepts : Char → Bool} {most : Nat} {characters : List Char} :
    characters ∈ (Regex.seq (.one Pattern.isAlnum) (.times 0 most (.one accepts))).language ↔
      Pattern.startsWith Pattern.isAlnum (Pattern.fullmatch accepts 0 most) characters = true := by
  rw [Regex.mem_seq_one]
  cases characters with
  | nil => simp [Pattern.startsWith]
  | cons c rest =>
      rw [Pattern.startsWith, Bool.and_eq_true, Pattern.fullmatch]
      constructor
      · rintro ⟨found, more, hSame, hFound, hMore⟩
        obtain ⟨rfl, rfl⟩ := List.cons.inj hSame
        obtain ⟨-, hMost, hAll⟩ := Regex.mem_times_one.mp hMore
        exact ⟨hFound, by simp [hMost, List.all_eq_true.mpr hAll]⟩
      · rintro ⟨hFound, hMore⟩
        simp only [Bool.and_eq_true, decide_eq_true_eq] at hMore
        exact ⟨c, rest, rfl, hFound, Regex.mem_times_one.mpr ⟨hMore.1.1, hMore.1.2, List.all_eq_true.mp hMore.2⟩⟩

theorem owner_iff {text : String} : text.toList ∈ ownerPattern.language ↔ Pattern.owner text = true := startsWith_iff

theorem repository_iff {text : String} :
    text.toList ∈ repositoryPattern.language ↔ Pattern.repository text = true := startsWith_iff

theorem segment_iff {characters : List Char} :
    characters ∈ segmentPattern.language ↔ Pattern.skillSegment characters = true := startsWith_iff

/-- Segments after the first one, each with its slash. -/
theorem intercalate_cons (first : List Char) (others : List (List Char)) :
    List.intercalate ['/'] (first :: others) = first ++ others.flatMap fun part => '/' :: part := by
  induction others generalizing first with
  | nil => simp [List.intercalate]
  | cons next rest ih =>
      have hStep : List.intercalate ['/'] (first :: next :: rest) =
          first ++ '/' :: List.intercalate ['/'] (next :: rest) := by
        simp [List.intercalate, List.intersperse]
      rw [hStep, ih, List.flatMap_cons, List.cons_append]

/-- The language of paths. -/
theorem skillPath_iff {characters : List Char} :
    characters ∈ skillPathPattern.language ↔ ∃ parts, SkillPath characters parts := by
  rw [skillPathPattern, Regex.language, Language.mem_mul]
  constructor
  · rintro ⟨first, hFirst, rest, ⟨count, -, hCount, hRest⟩, rfl⟩
    obtain ⟨words, rfl, rfl, hWords⟩ := Language.mem_pow.mp hRest
    have hTails : ∀ word ∈ words, word = '/' :: word.tail ∧ word.tail ∈ segmentPattern.language := by
      intro word hWord
      obtain ⟨c, tail, rfl, hSlash, hTail⟩ := Regex.mem_seq_one.mp (hWords word hWord)
      rw [of_decide_eq_true hSlash]
      exact ⟨rfl, hTail⟩
    refine ⟨first :: words.map List.tail, by simp, by simp; omega, ?_, ?_⟩
    · intro part hPart
      rcases List.mem_cons.mp hPart with rfl | hOther
      · exact segment_iff.mp hFirst
      · obtain ⟨word, hWord, rfl⟩ := List.mem_map.mp hOther
        exact segment_iff.mp (hTails word hWord).2
    · rw [intercalate_cons, List.flatMap_map, List.flatMap_def, List.map_congr_left fun word hWord =>
        ((hTails word hWord).1).symm, List.map_id']
  · rintro ⟨parts, path⟩
    cases parts with
    | nil => exact absurd rfl path.present
    | cons first others =>
        have hFew := path.few
        rw [List.length_cons] at hFew
        refine ⟨first, segment_iff.mpr (path.segments first List.mem_cons_self),
          others.flatMap fun part => '/' :: part, ⟨others.length, Nat.zero_le _, by omega, ?_⟩, ?_⟩
        · refine Language.mem_pow.mpr ⟨others.map fun part => '/' :: part, List.flatMap_def, by simp, ?_⟩
          intro word hWord
          obtain ⟨part, hPart, rfl⟩ := List.mem_map.mp hWord
          exact Regex.mem_seq_one.mpr ⟨'/', part, rfl, by simp,
            segment_iff.mpr (path.segments part (List.mem_cons_of_mem _ hPart))⟩
        · rw [path.joined, intercalate_cons]

/-- A character of a segment is none of those that a path may not hold. -/
theorem segmentCharacter {c : Char} (h : isSegmentCharacter c = true) :
    c ≠ '/' ∧ c ≠ ':' ∧ c ≠ Char.ofNat 92 ∧ c.toNat < 128 := by
  have hCode : ∀ code, code = 47 ∨ code = 58 ∨ code = 92 ∨ 128 ≤ code → c.toNat ≠ code := by
    intro code hBad hSame
    simp only [isSegmentCharacter, Pattern.isAlnum, Pattern.isDot, Pattern.isUnderscore, Pattern.isHyphen,
      Bool.or_eq_true, Bool.and_eq_true, decide_eq_true_eq] at h
    omega
  refine ⟨?_, ?_, ?_, ?_⟩
  · rintro rfl
    exact hCode 47 (by decide) (by decide)
  · rintro rfl
    exact hCode 58 (by decide) (by decide)
  · rintro rfl
    exact hCode 92 (by decide) (by decide)
  · by_contra hLarge
    exact hCode c.toNat (by omega) rfl

theorem mem_segment {part : List Char} (h : Pattern.skillSegment part = true) : part ≠ [] ∧ part.length ≤ 100 ∧
    part ≠ ['.'] ∧ ∀ c ∈ part, isSegmentCharacter c = true := by
  cases part with
  | nil => cases h
  | cons c rest =>
      simp only [Pattern.skillSegment, Pattern.startsWith, Pattern.fullmatch, Bool.and_eq_true, decide_eq_true_eq,
        List.all_eq_true] at h
      refine ⟨by simp, by simp; omega, ?_, ?_⟩
      · intro hDot
        rw [(List.cons.inj hDot).1] at h
        exact absurd h.1 (by decide)
      · intro other hOther
        rcases List.mem_cons.mp hOther with rfl | hRest
        · simp [isSegmentCharacter, h.1]
        · exact h.2.2 other hRest

section
variable {characters : List Char} {parts : List (List Char)}

theorem SkillPath.character (path : SkillPath characters parts) :
    ∀ c ∈ characters, c = '/' ∨ isSegmentCharacter c = true := by
  intro c hC
  rw [path.joined] at hC
  cases parts with
  | nil => exact absurd rfl path.present
  | cons first others =>
      rw [intercalate_cons] at hC
      rcases List.mem_append.mp hC with hFirst | hOthers
      · exact Or.inr ((mem_segment (path.segments first List.mem_cons_self)).2.2.2 c hFirst)
      · obtain ⟨part, hPart, hMember⟩ := List.mem_flatMap.mp hOthers
        rcases List.mem_cons.mp hMember with rfl | hInside
        · exact Or.inl rfl
        · exact Or.inr ((mem_segment (path.segments part (List.mem_cons_of_mem _ hPart))).2.2.2 c hInside)

theorem SkillPath.ascii (path : SkillPath characters parts) : ∀ c ∈ characters, c.toNat < 128 := by
  intro c hC
  rcases path.character c hC with rfl | hSegment
  · decide
  · exact (segmentCharacter hSegment).2.2.2

/-- The parts are those that the path library finds. -/
theorem SkillPath.pathParts (path : SkillPath characters parts) : pathParts characters = parts := by
  have hSlash : ∀ part ∈ parts, '/' ∉ part := fun part hPart hMember =>
    (segmentCharacter ((mem_segment (path.segments part hPart)).2.2.2 '/' hMember)).1 rfl
  rw [VouchSpec.pathParts, path.joined, List.splitOn_intercalate '/' hSlash path.present]
  refine List.filter_eq_self.mpr ?_
  intro part hPart
  have hPart := mem_segment (path.segments part hPart)
  simp [hPart.1, hPart.2.2.1]

theorem SkillPath.nonempty (path : SkillPath characters parts) : characters ≠ [] ∧ characters.head? ≠ some '/' := by
  cases parts with
  | nil => exact absurd rfl path.present
  | cons first others =>
      have hFirst := mem_segment (path.segments first List.mem_cons_self)
      rw [path.joined, intercalate_cons]
      cases first with
      | nil => exact absurd rfl hFirst.1
      | cons c rest =>
          refine ⟨by simp, ?_⟩
          intro hSlash
          exact (segmentCharacter (hFirst.2.2.2 c List.mem_cons_self)).1 (Option.some.inj hSlash)

end

/-- The path check accepts the paths of segments that are not too long. -/
theorem validateSkillPath_eq_ok {value : Json} {text : String} : validateSkillPath value = .ok text ↔
    value = .str text ∧ text.toList.length ≤ 1024 ∧ ∃ parts, SkillPath text.toList parts := by
  cases value with
  | str found =>
      simp only [validateSkillPath, Json.str?, Except.bind_eq_ok_iff, require_eq_ok, exists_const,
        Except.pure_eq_ok_iff]
      constructor
      · rintro ⟨⟨hNonempty, hBytes⟩, ⟨hBackslash, hHead, hColon⟩, ⟨hPosix, hSome, hFew, -⟩, hSegments, rfl⟩
        have path : SkillPath found.toList (pathParts found.toList) := by
          refine ⟨?_, hFew, hSegments, ?_⟩
          · intro hNone
            rw [hNone] at hSome
            exact absurd hSome (by decide)
          · rw [asPosix, if_neg] at hPosix
            · exact hPosix
            · intro hNone
              rw [hNone] at hSome
              exact absurd hSome (by decide)
        rw [Bytes.utf8_length_of_ascii path.ascii] at hBytes
        exact ⟨rfl, hBytes, _, path⟩
      · rintro ⟨hSame, hLength, parts, path⟩
        obtain rfl := Json.str.inj hSame
        have hSome : 1 ≤ parts.length := List.length_pos_iff.mpr path.present
        refine ⟨⟨path.nonempty.1, ?_⟩, ⟨?_, path.nonempty.2, ?_⟩, ⟨?_, ?_⟩, ?_, rfl⟩
        · rw [Bytes.utf8_length_of_ascii path.ascii]
          exact hLength
        · intro hMember
          rcases path.character _ hMember with hSlash | hSegment
          · exact absurd hSlash (by decide)
          · exact (segmentCharacter hSegment).2.2.1 rfl
        · intro hMember
          rcases path.character _ hMember with hSlash | hSegment
          · exact absurd hSlash (by decide)
          · exact (segmentCharacter hSegment).2.1 rfl
        · rw [asPosix, path.pathParts, if_neg path.present]
          exact path.joined
        · rw [path.pathParts]
          refine ⟨hSome, path.few, ?_⟩
          intro part hPart
          have hSegment := mem_segment (path.segments part hPart)
          refine ⟨hSegment.1, hSegment.2.2.1, ?_⟩
          rintro rfl
          exact absurd (path.segments _ hPart) (by decide)
        · rw [path.pathParts]
          exact path.segments
  | _ => simp [validateSkillPath, Json.str?]

theorem skillPath_valid_iff {value : Json} :
    (allOf [type [.string], minLength 1, maxLength 1024, pattern skillPathPattern]).valid value = true ↔
      ∃ text, validateSkillPath value = .ok text := by
  simp only [validateSkillPath_eq_ok]
  rw [valid, validAll_iff]
  simp only [List.forall_mem_cons, List.not_mem_nil, false_implies, implies_true, and_true]
  cases value with
  | str text =>
      simp only [valid, Json.typeName, List.mem_singleton, decide_true, decide_eq_true_eq, Regex.fullmatch_iff,
        skillPath_iff, Json.str.injEq, exists_eq_left', true_and]
      constructor
      · rintro ⟨-, hMost, hPath⟩
        exact ⟨hMost, hPath⟩
      · rintro ⟨hMost, parts, path⟩
        exact ⟨List.length_pos_iff.mpr path.nonempty.1, hMost, parts, path⟩
  | _ => simp [valid, Json.typeName]

/-- What a valid source holds. -/
theorem source_valid_iff {value : Json} :
    (record (sourceProperties.map Prod.fst) sourceProperties).valid value = true ↔ ∃ source : Source,
      value.hasExactly ["commit", "host", "owner", "repository", "skill_path"] = true ∧
      value.get? "host" = some (.str "github.com") ∧
      (value.get? "owner" = some (.str source.owner) ∧ Pattern.owner source.owner = true) ∧
      (value.get? "repository" = some (.str source.repository) ∧ Pattern.repository source.repository = true) ∧
      (value.get? "commit" = some (.str source.commit) ∧ Pattern.commit source.commit = true) ∧
      ∃ path, value.get? "skill_path" = some path ∧ validateSkillPath path = .ok source.skillPath := by
  rw [record_valid_iff]
  simp only [sourceProperties, List.map_cons, List.map_nil, List.forall_mem_cons, List.not_mem_nil, false_implies,
    implies_true, and_true, matching_valid, const_str_valid, skillPath_valid_iff, commit_iff, owner_iff,
    repository_iff]
  constructor
  · rintro ⟨hExactly, ⟨_, hCommit, commit, rfl, hCommitValid⟩, ⟨_, hHost, rfl⟩, ⟨_, hOwner, owner, rfl, hOwnerValid⟩,
      ⟨_, hRepository, repository, rfl, hRepositoryValid⟩, path, hPath, skillPath, hValid⟩
    exact ⟨⟨owner, repository, commit, skillPath⟩, hExactly, hHost, ⟨hOwner, hOwnerValid⟩,
      ⟨hRepository, hRepositoryValid⟩, ⟨hCommit, hCommitValid⟩, path, hPath, hValid⟩
  · rintro ⟨source, hExactly, hHost, ⟨hOwner, hOwnerValid⟩, ⟨hRepository, hRepositoryValid⟩, ⟨hCommit, hCommitValid⟩,
      path, hPath, hValid⟩
    exact ⟨hExactly, ⟨_, hCommit, _, rfl, hCommitValid⟩, ⟨_, hHost, rfl⟩, ⟨_, hOwner, _, rfl, hOwnerValid⟩,
      ⟨_, hRepository, _, rfl, hRepositoryValid⟩, path, hPath, _, hValid⟩

/-- What a valid maximum price holds. -/
theorem price_valid_iff {value : Json} :
    (record (priceProperties.map Prod.fst) priceProperties).valid value = true ↔ ∃ amount : Nat,
      value.hasExactly ["amount_minor", "currency"] = true ∧
      value.get? "currency" = some (.str freshValidationCurrency) ∧
      value.get? "amount_minor" = some (.int amount) ∧ amount ≤ 1000000 := by
  rw [record_valid_iff]
  simp only [priceProperties, List.map_cons, List.map_nil, List.forall_mem_cons, List.not_mem_nil, false_implies,
    implies_true, and_true, integer_valid, const_str_valid]
  constructor
  · rintro ⟨hExactly, ⟨_, hAmount, number, rfl, hLeast, hMost⟩, _, hCurrency, rfl⟩
    refine ⟨number.toNat, hExactly, hCurrency, ?_, by omega⟩
    rw [Int.toNat_of_nonneg hLeast]
    exact hAmount
  · rintro ⟨amount, hExactly, hCurrency, hAmount, hMost⟩
    exact ⟨hExactly, ⟨_, hAmount, _, rfl, by omega, by omega⟩, _, hCurrency, rfl⟩

/-- The valid values are those that the parser accepts. -/
theorem schema_valid_iff {value : Json} :
    schema.valid value = true ↔ ∃ request, parseFreshValidationRequest value = .ok request := by
  rw [schema, record_valid_iff]
  simp only [parseFreshValidationRequest_eq_ok, properties, List.map_cons, List.map_nil, List.forall_mem_cons,
    List.not_mem_nil, false_implies, implies_true, and_true, matching_valid, const_str_valid, source_valid_iff,
    price_valid_iff, deliveryId_iff]
  constructor
  · rintro ⟨hExactly, ⟨_, hDelivery, deliveryId, rfl, hDeliveryValid⟩, ⟨price, hPrice, amount, hPriceExactly, hCurrency,
      hAmount, hMost⟩, ⟨_, hOperation, rfl⟩, ⟨_, hProfile, rfl⟩, ⟨_, hVersion, rfl⟩, origin, hOrigin, source,
      hOriginExactly, hHost, hOwner, hRepository, hCommit, hPath⟩
    exact ⟨⟨source, amount, deliveryId⟩, origin, price, hExactly, hVersion, hOperation, hProfile, hOrigin,
      hOriginExactly, hHost, hOwner, hRepository, hCommit, hPath, hPrice, hPriceExactly, hCurrency, ⟨hAmount, hMost⟩,
      hDelivery, hDeliveryValid⟩
  · rintro ⟨request, origin, price, reads⟩
    exact ⟨reads.members, ⟨_, reads.deliveryId.1, _, rfl, reads.deliveryId.2⟩,
      ⟨_, reads.maximum, _, reads.maximumMembers, reads.currency, reads.amount⟩, ⟨_, reads.operation, rfl⟩,
      ⟨_, reads.profile, rfl⟩, ⟨_, reads.schemaVersion, rfl⟩, _, reads.source, _, reads.sourceMembers, reads.host,
      reads.owner, reads.repository, reads.commit, reads.skillPath⟩

/-- A request that was read is the value that it was read from. -/
theorem toJson_sorted {value : Json} {request : ValidationRequest} (distinct : value.Distinct)
    (h : parseFreshValidationRequest value = .ok request) : request.toJson.sorted = value.sorted := by
  obtain ⟨origin, price, reads⟩ := parseFreshValidationRequest_eq_ok.mp h
  obtain ⟨path, hPath, hValid⟩ := reads.skillPath
  obtain ⟨rfl, -⟩ := validateSkillPath_eq_ok.mp hValid
  have hOrigin : origin.sorted = request.source.toJson.sorted := by
    refine Json.sorted_eq_of_members (distinct.get? reads.source) (by simp) reads.sourceMembers ?_
    simp [reads.commit.1, reads.host, reads.owner.1, reads.repository.1, hPath]
  have hPrice : price.sorted = (Json.obj [("amount_minor", .int request.maxAmountMinor),
      ("currency", .str freshValidationCurrency)]).sorted := by
    refine Json.sorted_eq_of_members (distinct.get? reads.maximum) (by simp) reads.maximumMembers ?_
    simp [reads.amount.1, reads.currency]
  unfold ValidationRequest.toJson
  symm
  refine Json.sorted_eq_of_members distinct (by simp) reads.members ?_
  simp [reads.deliveryId.1, reads.maximum, reads.operation, reads.profile, reads.schemaVersion, reads.source, hOrigin,
    hPrice]

/-- The parser returns its input exactly on the values that are valid under the schema. -/
theorem parsed_iff_valid (value : Json) (hDistinct : value.Distinct) :
    (∃ request, parseFreshValidationRequest value = .ok request ∧ request.toJson.sorted = value.sorted) ↔
      schema.valid value = true := by
  rw [schema_valid_iff]
  constructor
  · rintro ⟨request, hRequest, -⟩
    exact ⟨request, hRequest⟩
  · rintro ⟨request, hRequest⟩
    exact ⟨request, hRequest, toJson_sorted hDistinct hRequest⟩

/-- A request for the skill at a path. -/
def sample (path : String) : Json := .obj [
  ("schema_version", .str "1.0.0"), ("operation", .str "fresh_public_static_validation"),
  ("source", .obj [("host", .str "github.com"), ("owner", .str "acme"), ("repository", .str "skills"),
    ("commit", .str "0123456789abcdef0123456789abcdef01234567"), ("skill_path", .str path)]),
  ("profile", .str "vouchspec-public-static-v1"),
  ("max_price", .obj [("currency", .str "usd"), ("amount_minor", .int 25)]), ("delivery_id", .str "delivery-1")]

theorem sample_distinct (path : String) : (sample path).Distinct := by
  refine .obj (by simp) ?_
  simp only [List.forall_mem_cons, List.not_mem_nil, false_implies, implies_true, and_true]
  refine ⟨.str _, .str _, .obj (by simp) ?_, .str _, .obj (by decide) ?_, .str _⟩
  · simp only [List.forall_mem_cons, List.not_mem_nil, false_implies, implies_true, and_true]
    exact ⟨.str _, .str _, .str _, .str _, .str _⟩
  · simp only [List.forall_mem_cons, List.not_mem_nil, false_implies, implies_true, and_true]
    exact ⟨.str _, .int _⟩

theorem parsed_iff_valid_sample :
    (sample "pdf").Distinct ∧
      ((∃ request, parseFreshValidationRequest (sample "pdf") = .ok request ∧
        request.toJson.sorted = (sample "pdf").sorted) ↔ schema.valid (sample "pdf") = true) :=
  ⟨sample_distinct "pdf", parsed_iff_valid (sample "pdf") (sample_distinct "pdf")⟩

end RequestSchema

end VouchSpec
