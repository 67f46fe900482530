import Mathlib.Data.List.Chain
import VouchSpec.Library.Glob
import VouchSpec.Commerce.RequestSchema

/-! The fetcher's checks of its arguments, before any command runs, and the requests
that pass them. -/

namespace VouchSpec

namespace Fetcher

open RequestSchema (isOwnerCharacter isSegmentCharacter isRepositoryCharacter SkillPath mem_segment intercalate_cons)

/-- `""|*[!A-Za-z0-9-]*|-*`. -/
def ownerRejected : List Glob :=
  [Glob.literal [], .aroundOne fun c => !isOwnerCharacter c, Glob.literal ['-'] ++ [.star]]

/-- `""|*[!A-Za-z0-9._-]*|[._-]*`. -/
def repositoryRejected : List Glob :=
  [Glob.literal [], .aroundOne fun c => !isSegmentCharacter c,
    [.one fun c => Pattern.isDot c || Pattern.isUnderscore c || Pattern.isHyphen c, .star]]

/-- `*[!0-9a-f]*|""`. -/
def commitRejected : List Glob := [.aroundOne fun c => !Bytes.isHexDigit c, Glob.literal []]

/-- A slash, or a character of `[A-Za-z0-9._-]`. -/
def isPathCharacter (c : Char) : Bool := isSegmentCharacter c || c = '/'

/-- `""|/*|*/|*\\*|*..*|*//*|*/./*|./*`, or a character outside the class. -/
def skillPathRejected : List Glob :=
  [Glob.literal [], Glob.literal ['/'] ++ [.star], .star :: Glob.literal ['/'], .around [Char.ofNat 92],
    .around ['.', '.'], .around ['/', '/'], .around ['/', '.', '/'], Glob.literal ['.', '/'] ++ [.star],
    .aroundOne fun c => !isPathCharacter c]

/-- One `case` statement: its branch exits. -/
def case (text : String) (rejected : List Glob) : Except Nat Unit :=
  if rejected.any fun pattern => pattern.fits text.toList then .error 64 else .ok ()

/-- The head of `fetch.sh`: the exit status of the first check that fails. -/
def checkArguments (owner repository commit skillPath : String) : Except Nat Unit := do
  case owner ownerRejected
  case repository repositoryRejected
  case commit commitRejected
  if commit.toList.length = 40 then pure () else .error 64
  case skillPath skillPathRejected

theorem case_eq_ok {text : String} {rejected : List Glob} :
    case text rejected = .ok () ↔ ∀ pattern ∈ rejected, pattern.fits text.toList = false := by
  rw [case]
  split
  · next h =>
      simp only [List.any_eq_true] at h
      obtain ⟨pattern, hPattern, hFits⟩ := h
      simp only [reduceCtorEq, false_iff, not_forall]
      exact ⟨pattern, hPattern, by simp [hFits]⟩
  · next h => simpa using h

theorem fits_empty {text : List Char} : Glob.fits (Glob.literal []) text = false ↔ text ≠ [] := by
  simp [Glob.literal, Glob.fits]

theorem fits_outside {accepts : Char → Bool} {text : List Char} :
    (Glob.aroundOne fun c => !accepts c).fits text = false ↔ ∀ c ∈ text, accepts c = true := by
  rw [← Bool.not_eq_true, Glob.fits_aroundOne]
  simp

section
variable {accepts : Char → Bool} {most : Nat} {text : String}

/-- A letter or digit before characters of a class. -/
theorem startsWith_cons (h : Pattern.startsWith Pattern.isAlnum (Pattern.fullmatch accepts 0 most) text.toList = true) :
    ∃ c rest, text.toList = c :: rest ∧ Pattern.isAlnum c = true ∧ ∀ other ∈ rest, accepts other = true := by
  cases hText : text.toList with
  | nil =>
      rw [hText] at h
      cases h
  | cons c rest =>
      rw [hText, Pattern.startsWith, Bool.and_eq_true] at h
      simp only [Pattern.fullmatch, Bool.and_eq_true, List.all_eq_true] at h
      exact ⟨c, rest, rfl, h.1, h.2.2⟩

end

theorem alnum_code {c : Char} (h : Pattern.isAlnum c = true) :
    c.toNat ≠ 45 ∧ c.toNat ≠ 46 ∧ c.toNat ≠ 47 ∧ c.toNat ≠ 95 := by
  simp only [Pattern.isAlnum, Bool.or_eq_true, Bool.and_eq_true, decide_eq_true_eq] at h
  omega

theorem owner_passes {owner : String} (h : Pattern.owner owner = true) : case owner ownerRejected = .ok () := by
  obtain ⟨c, rest, hText, hAlnum, hRest⟩ := startsWith_cons h
  have hCode := alnum_code hAlnum
  simp only [case_eq_ok, ownerRejected, List.forall_mem_cons, List.not_mem_nil, false_implies, implies_true, and_true,
    fits_empty, fits_outside, hText]
  refine ⟨List.cons_ne_nil c rest, ⟨?_, hRest⟩, ?_⟩
  · simp [isOwnerCharacter, hAlnum]
  · rw [← Bool.not_eq_true, Glob.fits_start, List.cons_prefix_cons]
    rintro ⟨rfl, -⟩
    exact hCode.1 rfl

theorem repository_passes {repository : String} (h : Pattern.repository repository = true) :
    case repository repositoryRejected = .ok () := by
  obtain ⟨c, rest, hText, hAlnum, hRest⟩ := startsWith_cons h
  have hCode := alnum_code hAlnum
  simp only [case_eq_ok, repositoryRejected, List.forall_mem_cons, List.not_mem_nil, false_implies, implies_true,
    and_true, fits_empty, fits_outside, hText]
  refine ⟨List.cons_ne_nil c rest, ⟨?_, ?_⟩, ?_⟩
  · simp [isSegmentCharacter, hAlnum]
  · intro other hOther
    have hAccepted := hRest other hOther
    simp only [isSegmentCharacter, Bool.or_eq_true] at hAccepted ⊢
    tauto
  · simp only [Glob.fits, Pattern.isDot, Pattern.isUnderscore, Pattern.isHyphen, Bool.and_eq_false_iff,
      Bool.or_eq_false_iff, decide_eq_false_iff_not]
    omega

theorem commit_passes {commit : String} (h : Pattern.commit commit = true) :
    case commit commitRejected = .ok () ∧ commit.toList.length = 40 := by
  simp only [Pattern.commit, Pattern.fullmatch, Bool.and_eq_true, decide_eq_true_eq, List.all_eq_true] at h
  have hLength : commit.toList.length = 40 := by omega
  refine ⟨?_, hLength⟩
  simp only [case_eq_ok, commitRejected, List.forall_mem_cons, List.not_mem_nil, false_implies, implies_true,
    and_true, fits_empty, fits_outside]
  refine ⟨h.2, ?_⟩
  intro hEmpty
  rw [hEmpty] at hLength
  cases hLength

/-- A letter or digit follows each slash. -/
def FollowsSlash (before after : Char) : Prop := before = '/' → Pattern.isAlnum after = true

theorem segment_cons {part : List Char} (h : Pattern.skillSegment part = true) :
    ∃ c rest, part = c :: rest ∧ Pattern.isAlnum c = true := by
  cases part with
  | nil => cases h
  | cons c rest =>
      rw [Pattern.skillSegment, Pattern.startsWith, Bool.and_eq_true] at h
      exact ⟨c, rest, rfl, h.1⟩

theorem segment_ne_slash {part : List Char} (h : Pattern.skillSegment part = true) : ∀ c ∈ part, c ≠ '/' := by
  rintro c hC rfl
  exact absurd ((mem_segment h).2.2.2 _ hC) (by decide)

/-- The characters of a path: a letter or digit leads, one follows each slash, and
no slash ends it. -/
structure Shaped (characters : List Char) : Prop where
  first : ∀ c ∈ characters.head?, Pattern.isAlnum c = true
  follows : characters.IsChain FollowsSlash
  last : ∀ c ∈ characters.getLast?, c ≠ '/'

theorem shaped_segment {part : List Char} (h : Pattern.skillSegment part = true) : Shaped part := by
  obtain ⟨c, rest, hPart, hAlnum⟩ := segment_cons h
  refine ⟨?_, ?_, ?_⟩
  · simpa [hPart] using hAlnum
  · refine (List.pairwise_of_forall_mem_list ?_).isChain
    intro before hBefore after _ hSlash
    exact absurd hSlash (segment_ne_slash h before hBefore)
  · intro other hOther
    exact segment_ne_slash h other (List.mem_of_mem_getLast? hOther)

theorem shaped_join {part rest : List Char} (hPart : Pattern.skillSegment part = true) (hRest : Shaped rest)
    (hSome : rest ≠ []) : Shaped (part ++ '/' :: rest) := by
  obtain ⟨first, follows, last⟩ := shaped_segment hPart
  obtain ⟨c, more, rfl, hAlnum⟩ := segment_cons hPart
  obtain ⟨d, others, rfl⟩ := List.exists_cons_of_ne_nil hSome
  refine ⟨?_, ?_, ?_⟩
  · simpa using hAlnum
  · refine follows.append ?_ ?_
    · refine List.isChain_cons.mpr ⟨?_, hRest.follows⟩
      intro other hOther _
      exact hRest.first other hOther
    · intro before hBefore _ _ hSlash
      exact absurd hSlash (last before hBefore)
  · intro other hOther
    rw [List.getLast?_append, List.getLast?_cons_cons] at hOther
    refine hRest.last other ?_
    simpa [List.getLast?_cons] using hOther

theorem shaped_path {parts : List (List Char)} (hSome : parts ≠ [])
    (hParts : ∀ part ∈ parts, Pattern.skillSegment part = true) : Shaped (List.intercalate ['/'] parts) := by
  induction parts with
  | nil => exact absurd rfl hSome
  | cons part others ih =>
      have hPart := hParts part List.mem_cons_self
      cases others with
      | nil =>
          have hOne : List.intercalate ['/'] [part] = part := by simp [List.intercalate]
          rw [hOne]
          exact shaped_segment hPart
      | cons next rest =>
          have hStep : List.intercalate ['/'] (part :: next :: rest) =
              part ++ '/' :: List.intercalate ['/'] (next :: rest) := by
            simp [List.intercalate, List.intersperse]
          have hRest := ih (List.cons_ne_nil next rest) fun other hOther => hParts other (List.mem_cons_of_mem _ hOther)
          rw [hStep]
          refine shaped_join hPart hRest ?_
          obtain ⟨c, more, rfl, -⟩ := segment_cons (hParts next (by simp))
          simp [intercalate_cons]

section
variable {characters : List Char}

theorem Shaped.follows_infix (shaped : Shaped characters) {before after : Char} {rest : List Char}
    (hInfix : before :: after :: rest <:+: characters) : FollowsSlash before after := by
  have hChain := List.IsChain.infix shaped.follows hInfix
  exact (List.isChain_cons_cons.mp hChain).1

/-- A path passes, unless it holds two dots in a row. -/
theorem path_passes_iff {path : String} {parts : List (List Char)} (valid : SkillPath path.toList parts) :
    case path skillPathRejected = .ok () ↔ ¬ ['.', '.'] <:+: path.toList := by
  have hShaped : Shaped path.toList := by
    rw [valid.joined]
    exact shaped_path valid.present valid.segments
  have hNonempty : path.toList ≠ [] := valid.nonempty.1
  have hCharacter : ∀ c ∈ path.toList, isPathCharacter c = true := by
    intro c hC
    rcases valid.character c hC with rfl | hSegment
    · decide
    · simp [isPathCharacter, hSegment]
  simp only [case_eq_ok, skillPathRejected, List.forall_mem_cons, List.not_mem_nil, false_implies, implies_true,
    and_true, fits_empty, fits_outside]
  simp only [← Bool.not_eq_true, Glob.fits_start, Glob.fits_suffix, Glob.fits_around]
  constructor
  · rintro ⟨-, -, -, -, hDots, -⟩
    exact hDots
  · intro hDots
    refine ⟨hNonempty, ?_, ?_, ?_, hDots, ?_, ?_, ?_, hCharacter⟩
    · rintro ⟨rest, hRest⟩
      exact absurd (hShaped.first '/' (by simp [← hRest])) (by decide)
    · rintro ⟨rest, hRest⟩
      exact hShaped.last '/' (by simp [← hRest]) rfl
    · intro hBackslash
      exact absurd (hCharacter _ (hBackslash.subset List.mem_cons_self)) (by decide)
    · intro hSlashes
      exact absurd (hShaped.follows_infix hSlashes rfl) (by decide)
    · intro hDot
      exact absurd (hShaped.follows_infix hDot rfl) (by decide)
    · rintro ⟨rest, hRest⟩
      exact absurd (hShaped.first '.' (by simp [← hRest])) (by decide)

end

/-- The fetcher's checks on the coordinates of a request. -/
def admits (source : Source) : Except Nat Unit :=
  checkArguments source.owner source.repository source.commit source.skillPath

/-- The skill path that a request asks for. -/
def requestedPath (value : Json) : Option String :=
  ((value.get? "source").bind fun source => source.get? "skill_path").bind Json.str?

/-- Two dots in a row somewhere in the path that a request asks for. -/
def DoublesDots (value : Json) : Prop :=
  ∃ path, requestedPath value = some path ∧ ['.', '.'] <:+: path.toList

/-- An accepted request is fetchable unless its path doubles a dot. -/
theorem admits_iff (value : Json) (request : ValidationRequest)
    (hAccepted : parseFreshValidationRequest value = .ok request) :
    admits request.source = .ok () ↔ ¬ DoublesDots value := by
  obtain ⟨origin, price, reads⟩ := parseFreshValidationRequest_eq_ok.mp hAccepted
  obtain ⟨path, hPath, hValid⟩ := reads.skillPath
  obtain ⟨rfl, -, parts, valid⟩ := RequestSchema.validateSkillPath_eq_ok.mp hValid
  have hRequested : requestedPath value = some request.source.skillPath := by
    rw [requestedPath, reads.source, Option.bind_some, hPath]
    rfl
  have hCommit := commit_passes reads.commit.2
  have hDoubles : DoublesDots value ↔ ['.', '.'] <:+: request.source.skillPath.toList := by
    simp [DoublesDots, hRequested]
  rw [hDoubles, ← path_passes_iff valid, admits, checkArguments, owner_passes reads.owner.2,
    repository_passes reads.repository.2, hCommit.1, if_pos hCommit.2]
  rfl

/-- The request that the parser makes of a sample. -/
def sampleRequest (path : String) : ValidationRequest where
  source := { owner := "acme", repository := "skills",
              commit := "0123456789abcdef0123456789abcdef01234567", skillPath := path }
  maxAmountMinor := 25
  deliveryId := "delivery-1"

theorem admits_iff_plain :
    parseFreshValidationRequest (RequestSchema.sample "skills/pdf") = .ok (sampleRequest "skills/pdf") ∧
      (admits (sampleRequest "skills/pdf").source = .ok () ↔ ¬ DoublesDots (RequestSchema.sample "skills/pdf")) := by
  have hAccepted : parseFreshValidationRequest (RequestSchema.sample "skills/pdf") = .ok (sampleRequest "skills/pdf") :=
    by decide +kernel
  exact ⟨hAccepted, admits_iff _ _ hAccepted⟩

/-- A path with two dots inside a name is sold, and then refused. -/
theorem sold_and_refused :
    ¬ ∀ value request, parseFreshValidationRequest value = .ok request → admits request.source = .ok () := by
  intro hAll
  have hAccepted : parseFreshValidationRequest (RequestSchema.sample "skills/a..b") = .ok (sampleRequest "skills/a..b") :=
    by decide +kernel
  have hRefused : admits (sampleRequest "skills/a..b").source = .error 64 := by decide +kernel
  have hAdmitted := hAll _ _ hAccepted
  rw [hRefused] at hAdmitted
  cases hAdmitted

end Fetcher

end VouchSpec
