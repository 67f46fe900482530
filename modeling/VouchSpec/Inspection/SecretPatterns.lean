import VouchSpec.Commerce.Contract
import VouchSpec.Library.Substitution
import VouchSpec.Library.Text

/-! The patterns of secrets as matchers of a text from its beginning on. -/

namespace VouchSpec

namespace Inspection

open Substitution

/-- The character as patterns compare it that ignore case. -/
def lowered (c : Char) : Char :=
  if 65 ≤ c.toNat ∧ c.toNat ≤ 90 then Char.ofNat (c.toNat + 32)
  else if c.toNat = 0x17F then 's'
  else if c.toNat = 0x212A then 'k'
  else if c.toNat = 0x130 ∨ c.toNat = 0x131 then 'i'
  else c

/-- What follows a word in lower case at the beginning of a text. -/
def dropWord : List Char → List Char → Option (List Char)
  | [], text => some text
  | _ :: _, [] => none
  | letter :: word, c :: rest => if lowered c = letter then dropWord word rest else none

def isUpperOrDigit (c : Char) : Bool := (48 ≤ c.toNat && c.toNat ≤ 57) || (65 ≤ c.toNat && c.toNat ≤ 90)

/-- `[A-Za-z0-9_-]`. -/
def isKeyCharacter (c : Char) : Bool := Pattern.isAlnum (lowered c) || Pattern.isUnderscore c || Pattern.isHyphen c

/-- A character of a token after `Bearer`. -/
def isTokenCharacter (c : Char) : Bool := Pattern.isAlnum (lowered c) || "._~+/-".toList.contains c

/-- `['"]`. -/
def isQuote (c : Char) : Bool := c.toNat = 34 || c.toNat = 39

/-- `[^\s,'";]`. -/
def isValueCharacter (c : Char) : Bool := !(Lines.isSpace c || c = ',' || isQuote c || c = ';')

/-- A character with which a match can begin. -/
def isOpening (c : Char) : Bool := Pattern.isAlnum (lowered c)

def apiKeyWords : List (List Char) := ["sk-".toList, "ghp-".toList, "github_pat-".toList]

def assignmentWords : List (List Char) :=
  ["apikey".toList, "api_key".toList, "api-key".toList, "token".toList, "password".toList, "secret".toList]

section
variable (isWord : Char → Bool)

def headWord : List Char → Bool
  | [] => false
  | c :: _ => isWord c

/-- `\b`, with a word character before the text or not. -/
def boundary (before : Bool) (text : List Char) : Bool := before != headWord isWord text

/-- So many characters of a class, and a boundary. -/
def exactRun (keep : Char → Bool) : Nat → Bool → List Char → Bool
  | 0, before, text => boundary isWord before text
  | _ + 1, _, [] => false
  | length + 1, _, c :: rest => keep c && exactRun keep length (isWord c) rest

/-- The length of the longest run of characters of a class that ends at a boundary, of at
least so many. -/
def longestRun (keep : Char → Bool) : Nat → Bool → List Char → Option Nat
  | least, before, [] => if least = 0 ∧ before = true then some 0 else none
  | least, before, c :: rest =>
      match if keep c = true then longestRun keep (least - 1) (isWord c) rest else none with
      | some length => some (length + 1)
      | none => if least = 0 ∧ boundary isWord before (c :: rest) = true then some 0 else none

/-- `AKIA[0-9A-Z]{16}\b`. -/
def accessKeyOf (text : List Char) : Option Found :=
  if "AKIA".toList.isPrefixOf text = true ∧ exactRun isWord isUpperOrDigit 16 true (text.drop 4) = true then
    some { length := 20, kept := 0, group := [] }
  else none

/-- `\bAKIA[0-9A-Z]{16}\b`. -/
def accessKey (before : Bool) (text : List Char) : Option Found :=
  if boundary isWord before text = true then accessKeyOf isWord text else none

/-- `(?i)WORD[A-Za-z0-9_-]{10,}\b`. -/
def apiKeyOf (word text : List Char) : Option Found := do
  let after ← dropWord word text
  let length ← longestRun isWord isKeyCharacter 10 (isWord '-') after
  return { length := word.length + length, kept := 0, group := [] }

/-- `(?i)\b(?:sk|ghp|github_pat)-[A-Za-z0-9_-]{10,}\b`. -/
def apiKey (before : Bool) (text : List Char) : Option Found :=
  if boundary isWord before text = true then apiKeyWords.findSome? fun word => apiKeyOf isWord word text else none

/-- A text without the quote at its beginning. -/
def unquoted : List Char → List Char
  | [] => []
  | c :: rest => if isQuote c = true then rest else c :: rest

/-- What follows `\s*[:=]\s*(['"]?)`. -/
def valueOf (after : List Char) : Option (List Char) :=
  match after.dropWhile Lines.isSpace with
  | [] => none
  | mark :: rest => if mark = ':' ∨ mark = '=' then some (unquoted (rest.dropWhile Lines.isSpace)) else none

/-- `(?i)(WORD)\s*[:=]\s*(['"]?)[^\s,'";]+`. -/
def assignmentOf (word text : List Char) : Option Found := do
  let after ← dropWord word text
  let value ← valueOf after
  let length := (value.takeWhile isValueCharacter).length
  if 0 < length then
    some {
      length := text.length - value.length + length
      kept := text.length - value.length
      group := text.take word.length }
  else none

/-- `(?i)\b(api[_-]?key|token|password|secret)\s*[:=]\s*(['"]?)[^\s,'";]+`. -/
def assignment (before : Bool) (text : List Char) : Option Found :=
  if boundary isWord before text = true then assignmentWords.findSome? fun word => assignmentOf word text else none

/-- `Bearer`, white space, at least ten characters of a token and `=*`, case ignored. -/
def bearerOf (text : List Char) : Option Found := do
  let after ← dropWord "bearer".toList text
  let token := after.dropWhile Lines.isSpace
  let length := (token.takeWhile isTokenCharacter).length
  let equals := ((token.drop length).takeWhile fun c => c = '=').length
  if token.length < after.length ∧ 10 ≤ length then
    some { length := text.length - token.length + length + equals, kept := text.length - token.length, group := [] }
  else none

/-- The same after a boundary. -/
def bearer (before : Bool) (text : List Char) : Option Found :=
  if boundary isWord before text = true then bearerOf text else none

/-- The patterns, in the order in which they are applied. -/
inductive SecretKind where
  | accessKey
  | apiKey
  | assignment
  | bearer
deriving DecidableEq

namespace SecretKind

def rule : SecretKind → Rule
  | .accessKey => { matcher := Inspection.accessKey isWord, replacement := fun _ => "<redacted>".toList }
  | .apiKey => { matcher := Inspection.apiKey isWord, replacement := fun _ => "<redacted>".toList }
  | .assignment => {
      matcher := Inspection.assignment isWord
      replacement := fun group => group ++ "=<redacted>".toList }
  | .bearer => { matcher := Inspection.bearer isWord, replacement := fun _ => "<redacted>".toList }

/-- Whether the secret has to stay as it is until the pattern is applied. The value after a
separator can be any text. -/
def isFixed : SecretKind → Bool
  | .assignment => false
  | _ => true

def earlier : SecretKind → List SecretKind
  | .accessKey => []
  | .apiKey => [.accessKey]
  | .assignment => [.accessKey, .apiKey]
  | .bearer => [.accessKey, .apiKey, .assignment]

def later : SecretKind → List SecretKind
  | .accessKey => [.apiKey, .assignment, .bearer]
  | .apiKey => [.assignment, .bearer]
  | .assignment => [.bearer]
  | .bearer => []

end SecretKind

/-- The word characters of patterns: the letters and digits are, control characters and
blanks are not. -/
structure WordCharacters : Prop where
  letters : ∀ c, isOpening c = true → isWord c = true
  controls : ∀ c : Char, c.toNat ≤ 32 → isWord c = false

variable {isWord}

theorem isPrefixOf_front {word front : List Char} (h : word.length ≤ front.length) (rest : List Char) :
    word.isPrefixOf (front ++ rest) = word.isPrefixOf front := by
  rw [Bool.eq_iff_iff, List.isPrefixOf_iff_prefix, List.isPrefixOf_iff_prefix]
  exact ⟨fun hPrefix => List.prefix_of_prefix_length_le hPrefix (List.prefix_append ..) h, List.prefix_append_of_prefix⟩

theorem dropWord_length {word text after : List Char} (h : dropWord word text = some after) :
    text.length = word.length + after.length := by
  induction word generalizing text with
  | nil =>
      obtain rfl := Option.some.inj h
      rw [List.length_nil, Nat.zero_add]
  | cons letter word ih =>
      cases text with
      | nil => cases h
      | cons c rest =>
          rw [dropWord] at h
          split at h
          · have hRest := ih h
            rw [List.length_cons, List.length_cons]
            omega
          · cases h

theorem dropWord_append {word front : List Char} (h : word.length ≤ front.length) (rest : List Char) :
    dropWord word (front ++ rest) = (dropWord word front).map fun after => after ++ rest := by
  induction word generalizing front with
  | nil => rfl
  | cons letter word ih =>
      cases front with
      | nil =>
          rw [List.length_nil, List.length_cons] at h
          omega
      | cons c front =>
          rw [List.cons_append, dropWord, dropWord]
          split
          · exact ih (by simpa using h)
          · rfl

/-- A text that begins with a word does so however it goes on. -/
theorem dropWord_front {word front rest after : List Char} (h : dropWord word (front ++ rest) = some after)
    (hLength : word.length ≤ front.length) :
    ∃ more, after = more ++ rest ∧ front.length = word.length + more.length ∧
      ∀ other, dropWord word (front ++ other) = some (more ++ other) := by
  rw [dropWord_append hLength] at h
  obtain ⟨more, hMore, rfl⟩ := Option.map_eq_some_iff.mp h
  refine ⟨more, rfl, dropWord_length hMore, ?_⟩
  intro other
  rw [dropWord_append hLength, hMore]
  rfl

theorem prefix_of_dropWord {word text after : List Char} (h : dropWord word text = some after) :
    word <+: text.map lowered := by
  induction word generalizing text with
  | nil => exact List.nil_prefix
  | cons letter word ih =>
      cases text with
      | nil => cases h
      | cons c rest =>
          rw [dropWord] at h
          split at h
          · next hLetter =>
              rw [List.map_cons, hLetter]
              exact (List.prefix_cons_inj letter).mpr (ih h)
          · cases h

/-- A text that begins with a word begins with a letter or a digit. -/
theorem dropWord_begins {word text after : List Char} (hWord : word.head?.any Pattern.isAlnum = true)
    (h : dropWord word text = some after) : ∃ c rest, text = c :: rest ∧ isOpening c = true := by
  cases word with
  | nil => cases hWord
  | cons letter word =>
      cases text with
      | nil => cases h
      | cons c rest =>
          rw [dropWord] at h
          split at h
          · next hLetter =>
              refine ⟨c, rest, rfl, ?_⟩
              rw [isOpening, hLetter]
              exact hWord
          · cases h

theorem takeWhile_front {keep : Char → Bool} {front rest : List Char} {c : Char} (hKeep : keep c = true)
    (h : ((front ++ c :: rest).takeWhile keep).length ≤ front.length) (other : List Char) :
    (front ++ other).takeWhile keep = front.takeWhile keep := by
  induction front with
  | nil =>
      rw [List.nil_append, List.takeWhile_cons_of_pos hKeep, List.length_cons, List.length_nil] at h
      omega
  | cons first front ih =>
      rw [List.cons_append, List.takeWhile_cons] at h ⊢
      rw [List.takeWhile_cons]
      split at h
      · next hFirst =>
          rw [if_pos hFirst, if_pos hFirst, ih (by simpa using h)]
      · next hFirst =>
          rw [if_neg hFirst, if_neg hFirst]

section
variable {c : Char}

theorem isOpening_cases (h : isOpening c = true) :
    48 ≤ c.toNat ∧ c.toNat ≤ 57 ∨ 65 ≤ c.toNat ∧ c.toNat ≤ 90 ∨ 97 ≤ c.toNat ∧ c.toNat ≤ 122 ∨ c.toNat = 0x17F ∨
      c.toNat = 0x212A ∨ c.toNat = 0x130 ∨ c.toNat = 0x131 := by
  rw [isOpening, lowered] at h
  split at h
  · omega
  · split at h
    · omega
    · split at h
      · omega
      · split at h
        · omega
        · simp only [Pattern.isAlnum, Bool.or_eq_true, Bool.and_eq_true, decide_eq_true_eq] at h
          omega

theorem isOpening_not_space (h : isOpening c = true) : Lines.isSpace c = false := by
  have hCases := isOpening_cases h
  simp only [Lines.isSpace, Bool.or_eq_false_iff, Bool.and_eq_false_iff, decide_eq_false_iff_not]
  omega

theorem isOpening_ne (h : isOpening c = true) {other : Char} (hOther : isOpening other = false) : c ≠ other := by
  rintro rfl
  rw [h] at hOther
  cases hOther

theorem isOpening_not_quote (h : isOpening c = true) : isQuote c = false := by
  have hCases := isOpening_cases h
  simp only [isQuote, Bool.or_eq_false_iff, decide_eq_false_iff_not]
  omega

theorem isOpening_value (h : isOpening c = true) : isValueCharacter c = true := by
  simp [isValueCharacter, isOpening_not_space h, isOpening_not_quote h,
    isOpening_ne h (show isOpening ',' = false by decide), isOpening_ne h (show isOpening ';' = false by decide)]

theorem isOpening_token (h : isOpening c = true) : isTokenCharacter c = true := by
  rw [isTokenCharacter, Bool.or_eq_true]
  exact Or.inl h

theorem isOpening_of_upper (h : isUpperOrDigit c = true) : isOpening c = true := by
  simp only [isUpperOrDigit, Bool.or_eq_true, Bool.and_eq_true, decide_eq_true_eq] at h
  rw [isOpening, lowered]
  split
  · have hNat : (Char.ofNat (c.toNat + 32)).toNat = c.toNat + 32 := by
      rw [Char.ofNat, dif_pos (Or.inl (by omega))]
      rfl
    simp only [Pattern.isAlnum, hNat, Bool.or_eq_true, Bool.and_eq_true, decide_eq_true_eq]
    omega
  · split
    · omega
    · split
      · omega
      · split
        · omega
        · simp only [Pattern.isAlnum, Bool.or_eq_true, Bool.and_eq_true, decide_eq_true_eq]
          omega

end

section
variable {keep : Char → Bool} {first second : Char} (words : WordCharacters isWord) (hFirst : isOpening first = true)
  (hSecond : isOpening second = true)
include words hFirst hSecond

theorem exactRun_front {length : Nat} {front : List Char} (hLength : length ≤ front.length) (before : Bool)
    (firstRest secondRest : List Char) :
    exactRun isWord keep length before (front ++ first :: firstRest) =
      exactRun isWord keep length before (front ++ second :: secondRest) := by
  induction length generalizing before front with
  | zero =>
      cases front with
      | nil =>
          rw [exactRun, exactRun, boundary, boundary]
          change (before != isWord first) = (before != isWord second)
          rw [words.letters first hFirst, words.letters second hSecond]
      | cons c front => rfl
  | succ length ih =>
      cases front with
      | nil =>
          rw [List.length_nil] at hLength
          omega
      | cons c front =>
          rw [List.cons_append, List.cons_append, exactRun, exactRun, ih (by simpa using hLength)]

theorem longestRun_front {least length : Nat} {before : Bool} {front firstRest : List Char}
    (h : longestRun isWord keep least before (front ++ first :: firstRest) = some length)
    (hLength : length ≤ front.length) (secondRest : List Char) :
    longestRun isWord keep least before (front ++ second :: secondRest) = some length ∨
      ∃ longer, longestRun isWord keep least before (front ++ second :: secondRest) = some longer ∧
        front.length < longer := by
  -- The next character is looked at first; both texts are treated alike.
  induction front generalizing least length before first second firstRest secondRest with
  | nil =>
      rw [List.nil_append, longestRun] at h ⊢
      cases hRun : if keep second = true then longestRun isWord keep (least - 1) (isWord second) secondRest else none with
      | some more => exact Or.inr ⟨more + 1, rfl, Nat.succ_pos more⟩
      | none =>
          left
          split at h
          · obtain rfl := Option.some.inj h
            rw [List.length_nil] at hLength
            omega
          · rw [boundary, headWord, words.letters first hFirst] at h
            simp only [boundary, headWord, words.letters second hSecond]
            exact h
  | cons c front ih =>
      rw [List.cons_append, longestRun] at h ⊢
      by_cases hKeep : keep c = true
      · rw [if_pos hKeep] at h ⊢
        cases hRun : longestRun isWord keep (least - 1) (isWord c) (front ++ first :: firstRest) with
        | some more =>
            rw [hRun] at h
            obtain rfl := Option.some.inj h
            rcases ih hFirst hSecond hRun (by simpa using hLength) secondRest with hSame | ⟨longer, hLonger, hMore⟩
            · exact Or.inl (by rw [hSame])
            · exact Or.inr ⟨longer + 1, by rw [hLonger], by simpa using hMore⟩
        | none =>
            rw [hRun] at h
            cases hOther : longestRun isWord keep (least - 1) (isWord c) (front ++ second :: secondRest) with
            | none => exact Or.inl h
            | some more =>
                by_cases hShort : more ≤ front.length
                · rcases ih hSecond hFirst hOther hShort firstRest with hSame | ⟨longer, hLonger, _⟩
                  · rw [hSame] at hRun
                    cases hRun
                  · rw [hLonger] at hRun
                    cases hRun
                · refine Or.inr ⟨more + 1, rfl, ?_⟩
                  rw [List.length_cons]
                  omega
      · rw [if_neg hKeep] at h ⊢
        exact Or.inl h

end

theorem apiKeyOf_stable (words : WordCharacters isWord) (word : List Char) :
    Stable isOpening (apiKeyOf isWord word) := by
  intro front first firstRest second secondRest found hFirst hSecond hFound hLength
  simp only [apiKeyOf, bind, Option.bind_eq_some_iff, pure, Option.some.injEq] at hFound
  obtain ⟨after, hAfter, length, hRun, rfl⟩ := hFound
  simp only at hLength
  obtain ⟨more, rfl, hFront, hOther⟩ := dropWord_front hAfter (by omega)
  rcases longestRun_front words hFirst hSecond hRun (by omega) secondRest with hSame | ⟨longer, hLonger, hMore⟩
  · left
    simp [apiKeyOf, hOther, hSame]
  · refine Or.inr ⟨{ length := word.length + longer, kept := 0, group := [] }, ?_, ?_⟩
    · simp [apiKeyOf, hOther, hLonger]
    · simp only
      omega

theorem accessKeyOf_stable (words : WordCharacters isWord) : Stable isOpening (accessKeyOf isWord) := by
  intro front first firstRest second secondRest found hFirst hSecond hFound hLength
  left
  rw [accessKeyOf] at hFound
  split at hFound
  · next hMatch =>
      obtain rfl := Option.some.inj hFound
      simp only at hLength
      have hPrefix (rest : List Char) := isPrefixOf_front (show "AKIA".toList.length ≤ front.length from by
        change 4 ≤ front.length
        omega) rest
      have hDrop (rest : List Char) : (front ++ rest).drop 4 = front.drop 4 ++ rest :=
        List.drop_append_of_le_length (by omega)
      have hRun : 16 ≤ (front.drop 4).length := by
        rw [List.length_drop]
        omega
      rw [accessKeyOf, hPrefix, hDrop, ← exactRun_front words hFirst hSecond hRun true firstRest secondRest, ← hDrop,
        ← hPrefix (first :: firstRest), if_pos hMatch]
  · cases hFound

theorem unquoted_length (text : List Char) : (unquoted text).length ≤ text.length := by
  cases text with
  | nil => exact Nat.le_refl 0
  | cons c rest =>
      rw [unquoted]
      split
      · exact Nat.le_succ _
      · exact Nat.le_refl _

theorem valueOf_length {after value : List Char} (h : valueOf after = some value) : value.length ≤ after.length := by
  rw [valueOf] at h
  have hDrop := (List.dropWhile_sublist Lines.isSpace (l := after)).length_le
  split at h
  · cases h
  · next mark rest hRest =>
      split at h
      · obtain rfl := Option.some.inj h
        have hUnquoted := unquoted_length (rest.dropWhile Lines.isSpace)
        have hMore := (List.dropWhile_sublist Lines.isSpace (l := rest)).length_le
        rw [hRest, List.length_cons] at hDrop
        omega
      · cases h

section
variable {first second : Char} (hFirst : isOpening first = true) (hSecond : isOpening second = true)
include hFirst hSecond

theorem unquoted_front (front firstRest secondRest : List Char) :
    ∃ more, unquoted (front ++ first :: firstRest) = more ++ first :: firstRest ∧
      unquoted (front ++ second :: secondRest) = more ++ second :: secondRest ∧ more.length ≤ front.length := by
  cases front with
  | nil =>
      refine ⟨[], ?_, ?_, Nat.le_refl 0⟩
      · rw [List.nil_append, unquoted, isOpening_not_quote hFirst]
        rfl
      · rw [List.nil_append, unquoted, isOpening_not_quote hSecond]
        rfl
  | cons c front =>
      rw [List.cons_append, List.cons_append, unquoted, unquoted]
      split
      · exact ⟨front, rfl, rfl, Nat.le_succ _⟩
      · exact ⟨c :: front, rfl, rfl, Nat.le_refl _⟩

theorem valueOf_front {front firstRest value : List Char} (h : valueOf (front ++ first :: firstRest) = some value)
    (secondRest : List Char) :
    ∃ more, value = more ++ first :: firstRest ∧ valueOf (front ++ second :: secondRest) = some (more ++ second :: secondRest) ∧
      more.length ≤ front.length := by
  rw [valueOf, Lines.dropWhile_stop (isOpening_not_space hFirst)] at h
  rw [valueOf, Lines.dropWhile_stop (isOpening_not_space hSecond)]
  have hDrop := (List.dropWhile_sublist Lines.isSpace (l := front)).length_le
  cases hRest : front.dropWhile Lines.isSpace with
  | nil =>
      rw [hRest, List.nil_append] at h
      simp only at h
      rw [if_neg] at h
      · cases h
      · exact not_or.mpr ⟨isOpening_ne hFirst (by decide), isOpening_ne hFirst (by decide)⟩
  | cons mark rest =>
      rw [hRest, List.length_cons] at hDrop
      rw [hRest, List.cons_append] at h
      rw [List.cons_append]
      simp only at h ⊢
      split at h
      · next hMark =>
          obtain rfl := Option.some.inj h
          have hMore := (List.dropWhile_sublist Lines.isSpace (l := rest)).length_le
          rw [if_pos hMark, Lines.dropWhile_stop (isOpening_not_space hFirst),
            Lines.dropWhile_stop (isOpening_not_space hSecond)]
          obtain ⟨more, hOne, hOther, hLength⟩ :=
            unquoted_front hFirst hSecond (rest.dropWhile Lines.isSpace) firstRest secondRest
          exact ⟨more, hOne, congrArg some hOther, by omega⟩
      · cases h

end

theorem assignmentOf_stable (word : List Char) : Stable isOpening (assignmentOf word) := by
  intro front first firstRest second secondRest found hFirst hSecond hFound hLength
  left
  simp only [assignmentOf, bind, Option.bind_eq_some_iff] at hFound
  obtain ⟨after, hAfter, value, hValue, hFound⟩ := hFound
  split at hFound
  · next hRun =>
      obtain rfl := Option.some.inj hFound
      have hAfterLength := dropWord_length hAfter
      have hValueLength := valueOf_length hValue
      simp only [List.length_append, List.length_cons] at hLength hAfterLength
      obtain ⟨more, rfl, hFront, hOther⟩ := dropWord_front hAfter (by omega)
      obtain ⟨begun, rfl, hSame, hBegun⟩ := valueOf_front hFirst hSecond hValue secondRest
      simp only [List.length_append, List.length_cons] at hLength
      have hEnds : ((begun ++ first :: firstRest).takeWhile isValueCharacter).length ≤ begun.length := by omega
      have hTake := takeWhile_front (isOpening_value hFirst) hEnds
      rw [hTake] at hRun
      have hGroup (rest : List Char) : (front ++ rest).take word.length = front.take word.length :=
        List.take_append_of_le_length (by omega)
      simp only [assignmentOf, hOther, hSame, bind, Option.bind_some, hTake, if_pos hRun, hGroup, List.length_append,
        List.length_cons, Option.some.injEq, Found.mk.injEq, and_true]
      omega
  · cases hFound

theorem bearerOf_stable : Stable isOpening bearerOf := by
  intro front first firstRest second secondRest found hFirst hSecond hFound hLength
  left
  simp only [bearerOf, bind, Option.bind_eq_some_iff] at hFound
  obtain ⟨after, hAfter, hFound⟩ := hFound
  split at hFound
  · next hRun =>
      obtain rfl := Option.some.inj hFound
      have hAfterLength := dropWord_length hAfter
      have hDrop := (List.dropWhile_sublist Lines.isSpace (l := after)).length_le
      simp only [List.length_append, List.length_cons] at hLength hAfterLength
      obtain ⟨more, rfl, hFront, hOther⟩ := dropWord_front hAfter (by omega)
      have hSpace (c : Char) (rest : List Char) (hOpening : isOpening c = true) :=
        Lines.dropWhile_stop (isOpening_not_space hOpening) more rest
      have hToken := (List.dropWhile_sublist Lines.isSpace (l := more)).length_le
      rw [hSpace first firstRest hFirst] at hRun hLength
      simp only [List.length_append, List.length_cons] at hLength hRun
      have hEnds : ((more.dropWhile Lines.isSpace ++ first :: firstRest).takeWhile isTokenCharacter).length ≤
          (more.dropWhile Lines.isSpace).length := by omega
      have hTake := takeWhile_front (isOpening_token hFirst) hEnds
      rw [hTake] at hRun hLength
      have hLonger := (List.takeWhile_prefix isTokenCharacter (l := more.dropWhile Lines.isSpace)).length_le
      have hEquals (c : Char) (rest : List Char) (hOpening : isOpening c = true) :
          (((more.dropWhile Lines.isSpace ++ c :: rest).drop
            ((more.dropWhile Lines.isSpace).takeWhile isTokenCharacter).length).takeWhile fun c => c = '=') =
              ((more.dropWhile Lines.isSpace).drop
                ((more.dropWhile Lines.isSpace).takeWhile isTokenCharacter).length).takeWhile fun c => c = '=' := by
        rw [List.drop_append_of_le_length hLonger]
        exact Lines.takeWhile_stop (by simpa using isOpening_ne hOpening (by decide)) _ _
      simp only [bearerOf, hOther, bind, Option.bind_some, hSpace _ _ hFirst, hSpace _ _ hSecond, hTake,
        hEquals _ _ hFirst, hEquals _ _ hSecond, List.length_append, List.length_cons]
      rw [if_pos (by omega)]
      simp only [Option.some.injEq, Found.mk.injEq, and_true]
      omega
  · cases hFound

/-- A matcher finds only what begins with a letter or a digit. -/
def Begins (matcher : List Char → Option Found) : Prop :=
  ∀ text found, matcher text = some found → ∃ c rest, text = c :: rest ∧ isOpening c = true ∧ 0 < found.length

theorem accessKeyOf_begins : Begins (accessKeyOf isWord) := by
  intro text found hFound
  rw [accessKeyOf] at hFound
  split at hFound
  · next hMatch =>
      obtain rfl := Option.some.inj hFound
      obtain ⟨rest, rfl⟩ := List.isPrefixOf_iff_prefix.mp hMatch.1
      exact ⟨'A', _, rfl, by decide, by decide⟩
  · cases hFound

theorem apiKeyWords_letters (word : List Char) (h : word ∈ apiKeyWords) : word.head?.any Pattern.isAlnum = true :=
  List.all_eq_true.mp (show (apiKeyWords.all fun word => word.head?.any Pattern.isAlnum) = true by decide) word h

theorem assignmentWords_letters (word : List Char) (h : word ∈ assignmentWords) :
    word.head?.any Pattern.isAlnum = true :=
  List.all_eq_true.mp (show (assignmentWords.all fun word => word.head?.any Pattern.isAlnum) = true by decide) word h

theorem apiKeyOf_begins {word : List Char} (h : word ∈ apiKeyWords) : Begins (apiKeyOf isWord word) := by
  intro text found hFound
  have hHead := apiKeyWords_letters word h
  simp only [apiKeyOf, bind, Option.bind_eq_some_iff, pure, Option.some.injEq] at hFound
  obtain ⟨after, hAfter, length, _, rfl⟩ := hFound
  obtain ⟨c, rest, hText, hOpening⟩ := dropWord_begins hHead hAfter
  have hPositive : 0 < word.length := by
    cases word with
    | nil => cases hHead
    | cons letter word => exact Nat.succ_pos _
  exact ⟨c, rest, hText, hOpening, Nat.add_pos_left hPositive length⟩

theorem assignmentOf_begins {word : List Char} (h : word ∈ assignmentWords) : Begins (assignmentOf word) := by
  intro text found hFound
  have hHead := assignmentWords_letters word h
  simp only [assignmentOf, bind, Option.bind_eq_some_iff] at hFound
  obtain ⟨after, hAfter, value, _, hFound⟩ := hFound
  split at hFound
  · next hRun =>
      obtain rfl := Option.some.inj hFound
      obtain ⟨c, rest, hText, hOpening⟩ := dropWord_begins hHead hAfter
      exact ⟨c, rest, hText, hOpening, Nat.add_pos_right _ hRun⟩
  · cases hFound

theorem bearerOf_begins : Begins bearerOf := by
  intro text found hFound
  simp only [bearerOf, bind, Option.bind_eq_some_iff] at hFound
  obtain ⟨after, hAfter, hFound⟩ := hFound
  split at hFound
  · next hRun =>
      obtain rfl := Option.some.inj hFound
      obtain ⟨c, rest, hText, hOpening⟩ := dropWord_begins (by decide) hAfter
      refine ⟨c, rest, hText, hOpening, ?_⟩
      simp only
      omega
  · cases hFound

theorem begins_findSome {words : List (List Char)} {matcher : List Char → List Char → Option Found}
    (h : ∀ word ∈ words, Begins (matcher word)) : Begins fun text => words.findSome? fun word => matcher word text := by
  intro text found hFound
  obtain ⟨word, hWord, hMatch⟩ := List.exists_of_findSome?_eq_some hFound
  exact h word hWord text found hMatch

theorem headWord_head (text : List Char) : headWord isWord text = text.head?.any isWord := by
  cases text <;> rfl

/-- A matcher after a boundary. -/
theorem local_of_stable {matcher : List Char → Option Found} {replacement : List Char → List Char}
    (begins : Begins matcher) (stable : Stable isOpening matcher)
    (group : ∀ context first second found other, matcher (context ++ first) = some found →
      matcher (context ++ second) = some other → found.kept = context.length → other.kept = context.length →
      found.group = other.group) :
    Rule.Local isOpening {
      matcher := fun before text => if boundary isWord before text = true then matcher text else none
      replacement } where
  begins before text found hFound := by
    simp only at hFound
    split at hFound
    · exact begins text found hFound
    · cases hFound
  front before := by
    have hGuard := @Stable.guard isOpening matcher (fun head => before != head.any isWord) stable
      fun text found hFound => by
        obtain ⟨_, _, _, _, hPositive⟩ := begins text found hFound
        exact hPositive
    simpa only [boundary, headWord_head] using hGuard
  group before context first second found other hFirst hSecond hKept hOther := by
    simp only at hFirst hSecond
    split at hFirst
    · split at hSecond
      · exact group context first second found other hFirst hSecond hKept hOther
      · cases hSecond
    · cases hFirst

theorem assignmentWords_apart {word other : List Char} (hWord : word ∈ assignmentWords) (hOther : other ∈ assignmentWords)
    (h : word <+: other) : word = other := by
  have hAll : (assignmentWords.all fun word => assignmentWords.all fun other => !word.isPrefixOf other || word == other) =
      true := by decide
  have hWords := List.all_eq_true.mp (List.all_eq_true.mp hAll word hWord) other hOther
  rw [List.isPrefixOf_iff_prefix.mpr h] at hWords
  simpa using hWords

theorem assignment_word {text : List Char} {found : Found}
    (h : (assignmentWords.findSome? fun word => assignmentOf word text) = some found) :
    ∃ word ∈ assignmentWords, word.length ≤ found.kept ∧ found.group = text.take word.length ∧ word <+: text.map lowered := by
  obtain ⟨word, hWord, hMatch⟩ := List.exists_of_findSome?_eq_some h
  refine ⟨word, hWord, ?_⟩
  simp only [assignmentOf, bind, Option.bind_eq_some_iff] at hMatch
  obtain ⟨after, hAfter, value, hValue, hMatch⟩ := hMatch
  split at hMatch
  · obtain rfl := Option.some.inj hMatch
    have hText := dropWord_length hAfter
    have hLength := valueOf_length hValue
    refine ⟨?_, rfl, prefix_of_dropWord hAfter⟩
    simp only
    omega
  · cases hMatch

/-- The word before a separator is in the context of the value. -/
theorem assignment_group {context first second : List Char} {found other : Found}
    (hFirst : (assignmentWords.findSome? fun word => assignmentOf word (context ++ first)) = some found)
    (hSecond : (assignmentWords.findSome? fun word => assignmentOf word (context ++ second)) = some other)
    (hKept : found.kept = context.length) (hOther : other.kept = context.length) : found.group = other.group := by
  obtain ⟨word, hWord, hLength, hGroup, hPrefix⟩ := assignment_word hFirst
  obtain ⟨otherWord, hOtherWord, hOtherLength, hOtherGroup, hOtherPrefix⟩ := assignment_word hSecond
  have hInContext {word rest : List Char} (h : word <+: (context ++ rest).map lowered) (hLength : word.length ≤ context.length) :
      word <+: context.map lowered := by
    rw [List.map_append] at h
    exact List.prefix_of_prefix_length_le h (List.prefix_append _ _) (by simpa using hLength)
  have hOne := hInContext hPrefix (by omega)
  have hTwo := hInContext hOtherPrefix (by omega)
  have hSame : word = otherWord := by
    rcases Nat.le_total word.length otherWord.length with hLe | hLe
    · exact assignmentWords_apart hWord hOtherWord (List.prefix_of_prefix_length_le hOne hTwo hLe)
    · exact (assignmentWords_apart hOtherWord hWord (List.prefix_of_prefix_length_le hTwo hOne hLe)).symm
  subst hSame
  rw [hGroup, hOtherGroup, List.take_append_of_le_length (by omega), List.take_append_of_le_length (by omega)]

theorem group_nil {matcher : List Char → Option Found} (h : ∀ text found, matcher text = some found → found.group = []) :
    ∀ context first second found other, matcher (context ++ first) = some found →
      matcher (context ++ second) = some other → found.kept = context.length → other.kept = context.length →
      found.group = other.group := by
  intro context first second found other hFirst hSecond _ _
  rw [h _ _ hFirst, h _ _ hSecond]

theorem accessKeyOf_group {text : List Char} {found : Found} (h : accessKeyOf isWord text = some found) :
    found.group = [] := by
  rw [accessKeyOf] at h
  split at h
  · rw [← Option.some.inj h]
  · cases h

theorem apiKey_group {text : List Char} {found : Found}
    (h : (apiKeyWords.findSome? fun word => apiKeyOf isWord word text) = some found) : found.group = [] := by
  obtain ⟨word, _, hMatch⟩ := List.exists_of_findSome?_eq_some h
  simp only [apiKeyOf, bind, Option.bind_eq_some_iff, pure, Option.some.injEq] at hMatch
  obtain ⟨after, _, length, _, rfl⟩ := hMatch
  rfl

theorem bearerOf_group {text : List Char} {found : Found} (h : bearerOf text = some found) : found.group = [] := by
  simp only [bearerOf, bind, Option.bind_eq_some_iff] at h
  obtain ⟨after, _, hFound⟩ := h
  split at hFound
  · rw [← Option.some.inj hFound]
  · cases hFound

/-- The patterns look at nothing behind their matches but the next character. -/
theorem SecretKind.rule_local (words : WordCharacters isWord) (kind : SecretKind) :
    (kind.rule isWord).Local isOpening := by
  cases kind with
  | accessKey =>
      exact local_of_stable accessKeyOf_begins (accessKeyOf_stable words) (group_nil fun _ _ => accessKeyOf_group)
  | apiKey =>
      exact local_of_stable (begins_findSome fun _ hWord => apiKeyOf_begins hWord)
        (Stable.findSome fun word _ => apiKeyOf_stable words word)
        (@group_nil (fun text => apiKeyWords.findSome? fun word => apiKeyOf isWord word text) fun _ _ => apiKey_group)
  | assignment =>
      exact local_of_stable (begins_findSome fun _ hWord => assignmentOf_begins hWord)
        (Stable.findSome fun word _ => assignmentOf_stable word) fun _ _ _ _ _ => assignment_group
  | bearer => exact local_of_stable bearerOf_begins bearerOf_stable (group_nil fun _ _ => bearerOf_group)

theorem dropWord_suffix {word text after : List Char} (h : dropWord word text = some after) : after <:+ text := by
  induction word generalizing text with
  | nil =>
      obtain rfl := Option.some.inj h
      exact List.suffix_rfl
  | cons letter word ih =>
      cases text with
      | nil => cases h
      | cons c rest =>
          rw [dropWord] at h
          split at h
          · exact (ih h).trans (List.suffix_cons c rest)
          · cases h

theorem unquoted_suffix (text : List Char) : unquoted text <:+ text := by
  cases text with
  | nil => exact List.suffix_rfl
  | cons c rest =>
      rw [unquoted]
      split
      · exact List.suffix_cons c rest
      · exact List.suffix_rfl

theorem valueOf_suffix {after value : List Char} (h : valueOf after = some value) : value <:+ after := by
  rw [valueOf] at h
  have hDrop := List.dropWhile_suffix Lines.isSpace (l := after)
  split at h
  · cases h
  · next mark rest hRest =>
      split at h
      · obtain rfl := Option.some.inj h
        rw [hRest] at hDrop
        exact (unquoted_suffix _).trans ((List.dropWhile_suffix _).trans ((List.suffix_cons mark rest).trans hDrop))
      · cases h

theorem takeWhile_ends {keep : Char → Bool} {run back : List Char} (h : ((run ++ back).takeWhile keep).length = run.length) :
    (∀ c ∈ run, keep c = true) ∧ ∀ c ∈ back.head?, keep c = false := by
  induction run with
  | nil =>
      refine ⟨fun _ hMem => absurd hMem List.not_mem_nil, ?_⟩
      intro c hHead
      cases back with
      | nil => cases hHead
      | cons head rest =>
          obtain rfl := Option.some.inj hHead
          rw [List.nil_append, List.takeWhile_cons] at h
          split at h
          · cases h
          · next hKeep => exact Bool.eq_false_iff.mpr hKeep
  | cons first run ih =>
      rw [List.cons_append, List.takeWhile_cons] at h
      split at h
      · next hFirst =>
          obtain ⟨hRun, hBack⟩ := ih (by simpa using h)
          exact ⟨List.forall_mem_cons.mpr ⟨hFirst, hRun⟩, hBack⟩
      · cases h

theorem exactRun_ends {keep : Char → Bool} {length : Nat} {before : Bool} {run back : List Char}
    (h : exactRun isWord keep length before (run ++ back) = true) (hLength : run.length = length) :
    boundary isWord (wordAfter isWord before run) back = true := by
  induction run generalizing length before with
  | nil =>
      obtain rfl := hLength
      exact h
  | cons c run ih =>
      obtain rfl := hLength
      rw [List.length_cons, List.cons_append, exactRun, Bool.and_eq_true] at h
      rw [wordAfter_cons]
      exact ih h.2 rfl

theorem longestRun_ends {keep : Char → Bool} {least : Nat} {before : Bool} {run back : List Char}
    (h : longestRun isWord keep least before (run ++ back) = some run.length) :
    boundary isWord (wordAfter isWord before run) back = true := by
  induction run generalizing least before with
  | nil =>
      cases back with
      | nil =>
          rw [List.nil_append, longestRun] at h
          split at h
          · next hBefore => simpa [boundary, headWord, wordAfter] using hBefore.2
          · cases h
      | cons c rest =>
          rw [List.nil_append, longestRun] at h
          split at h
          · cases h
          · split at h
            · next hBefore => exact hBefore.2
            · cases h
  | cons c run ih =>
      rw [List.cons_append, longestRun] at h
      rw [wordAfter_cons]
      split at h
      · next length hRun =>
          obtain rfl : length = run.length := by simpa using h
          split at hRun
          · exact ih hRun
          · cases hRun
      · split at h <;> cases h

theorem longestRun_least {keep : Char → Bool} {least length : Nat} {before : Bool} {text : List Char}
    (h : longestRun isWord keep least before text = some length) : least ≤ length := by
  induction text generalizing least length before with
  | nil =>
      rw [longestRun] at h
      split at h
      · next hLeast => omega
      · cases h
  | cons c rest ih =>
      rw [longestRun] at h
      split at h
      · next more hRun =>
          obtain rfl := Option.some.inj h
          split at hRun
          · have hMore := ih hRun
            omega
          · cases hRun
      · split at h
        · next hLeast => omega
        · cases h

theorem wordAfter_suffix {text run : List Char} (h : run <:+ text) (hRun : run ≠ []) (before other : Bool) :
    wordAfter isWord before text = wordAfter isWord other run := by
  obtain ⟨front, rfl⟩ := h
  obtain ⟨c, rest, rfl⟩ := List.exists_cons_of_ne_nil hRun
  rw [wordAfter_append]
  exact Window.wordAfter_cons_eq _ _ c rest

/-- The part of a suffix that comes before what follows a match. -/
theorem suffix_before {text inside back : List Char} (h : text <:+ inside ++ back) (hLength : back.length ≤ text.length) :
    ∃ run, text = run ++ back ∧ run <:+ inside := by
  obtain ⟨run, rfl⟩ := List.suffix_of_suffix_length_le (List.suffix_append inside back) h hLength
  obtain ⟨front, hFront⟩ := h
  exact ⟨run, rfl, front, List.append_cancel_right (by rw [List.append_assoc]; exact hFront)⟩

section
variable {inside back : List Char} {found : Found} (hLength : found.length = inside.length)
include hLength

theorem accessKeyOf_ends (h : accessKeyOf isWord (inside ++ back) = some found) :
    boundary isWord (wordAfter isWord false inside) back = true := by
  rw [accessKeyOf] at h
  split at h
  · next hMatch =>
      obtain rfl := Option.some.inj h
      simp only at hLength
      have hRun : (inside.drop 4).length = 16 := by
        rw [List.length_drop]
        omega
      have hEnds := hMatch.2
      rw [List.drop_append_of_le_length (by omega)] at hEnds
      have hNonempty : inside.drop 4 ≠ [] := by
        intro hNil
        rw [hNil] at hRun
        cases hRun
      rw [wordAfter_suffix (List.drop_suffix 4 inside) hNonempty false true]
      exact exactRun_ends hEnds hRun
  · cases h

theorem apiKey_ends (h : (apiKeyWords.findSome? fun word => apiKeyOf isWord word (inside ++ back)) = some found) :
    boundary isWord (wordAfter isWord false inside) back = true := by
  obtain ⟨word, _, hMatch⟩ := List.exists_of_findSome?_eq_some h
  simp only [apiKeyOf, bind, Option.bind_eq_some_iff, pure, Option.some.injEq] at hMatch
  obtain ⟨after, hAfter, length, hRun, rfl⟩ := hMatch
  have hText := dropWord_length hAfter
  rw [List.length_append] at hText
  simp only at hLength
  obtain ⟨run, rfl, hSuffix⟩ := suffix_before (dropWord_suffix hAfter) (by omega)
  rw [List.length_append] at hText
  obtain rfl : length = run.length := by omega
  have hLeast := longestRun_least hRun
  have hNonempty : run ≠ [] := by
    rintro rfl
    rw [List.length_nil] at hLeast
    omega
  rw [wordAfter_suffix hSuffix hNonempty false (isWord '-')]
  exact longestRun_ends hRun

theorem assignment_ends (h : (assignmentWords.findSome? fun word => assignmentOf word (inside ++ back)) = some found) :
    ∀ c ∈ back.head?, isOpening c = false := by
  obtain ⟨word, _, hMatch⟩ := List.exists_of_findSome?_eq_some h
  simp only [assignmentOf, bind, Option.bind_eq_some_iff] at hMatch
  obtain ⟨after, hAfter, value, hValue, hMatch⟩ := hMatch
  split at hMatch
  · obtain rfl := Option.some.inj hMatch
    have hSuffix := (valueOf_suffix hValue).trans (dropWord_suffix hAfter)
    have hValueLength := hSuffix.length_le
    have hTake := (List.takeWhile_prefix isValueCharacter (l := value)).length_le
    rw [List.length_append] at hValueLength
    simp only [List.length_append] at hLength
    obtain ⟨run, rfl, _⟩ := suffix_before hSuffix (by omega)
    rw [List.length_append] at hLength hTake hValueLength
    have hEnds := (takeWhile_ends (show ((run ++ back).takeWhile isValueCharacter).length = run.length by omega)).2
    intro c hHead
    rw [Bool.eq_false_iff]
    intro hOpening
    have hEnd := hEnds c hHead
    rw [isOpening_value hOpening] at hEnd
    cases hEnd
  · cases hMatch

/-- A token ends before what begins no token, or in an equals sign. -/
theorem bearerOf_ends (h : bearerOf (inside ++ back) = some found) :
    (∀ c ∈ back.head?, isOpening c = false) ∨ wordAfter isWord false inside = isWord '=' := by
  simp only [bearerOf, bind, Option.bind_eq_some_iff] at h
  obtain ⟨after, hAfter, hMatch⟩ := h
  split at hMatch
  · obtain rfl := Option.some.inj hMatch
    have hSuffix := (List.dropWhile_suffix Lines.isSpace).trans (dropWord_suffix hAfter)
    generalize after.dropWhile Lines.isSpace = token at hLength hSuffix
    have hTokenLength := hSuffix.length_le
    have hTake := (List.takeWhile_prefix isTokenCharacter (l := token)).length_le
    have hEquals := (List.takeWhile_prefix (fun c => decide (c = '='))
      (l := token.drop (token.takeWhile isTokenCharacter).length)).length_le
    rw [List.length_drop] at hEquals
    rw [List.length_append] at hTokenLength
    simp only [List.length_append] at hLength
    obtain ⟨run, rfl, hRun⟩ := suffix_before hSuffix (by omega)
    generalize hCount : ((run ++ back).takeWhile isTokenCharacter).length = count at hLength hTake hEquals
    rw [List.length_append] at hLength hTake hEquals hTokenLength
    rw [List.drop_append_of_le_length (by omega)] at hLength hEquals
    have hEnds := takeWhile_ends (show (((run.drop count) ++ back).takeWhile fun c => decide (c = '=')).length =
      (run.drop count).length from by
        rw [List.length_drop]
        omega)
    by_cases hNil : run.drop count = []
    · left
      have hShort := List.drop_eq_nil_iff.mp hNil
      rw [hNil, List.nil_append] at hLength
      have hStops := (takeWhile_ends (show ((run ++ back).takeWhile isTokenCharacter).length = run.length by omega)).2
      intro c hHead
      rw [Bool.eq_false_iff]
      intro hOpening
      have hStop := hStops c hHead
      rw [isOpening_token hOpening] at hStop
      cases hStop
    · right
      have hAll := hEnds.1
      rw [wordAfter_suffix ((List.drop_suffix count run).trans hRun) hNil false false, wordAfter,
        List.getLast?_eq_some_getLast hNil]
      have hLast := hAll _ (List.getLast_mem hNil)
      simp only
      rw [of_decide_eq_true hLast]
  · cases hMatch

end

/-- Two matches of a pattern that end before the same text leave the same behind. -/
theorem SecretKind.settles (kind : SecretKind) {before : Bool}
    {first second back : List Char} {found other : Found}
    (hFirst : (kind.rule isWord).matcher before (first ++ back) = some found) (hFound : found.length = first.length)
    (hSecond : (kind.rule isWord).matcher before (second ++ back) = some other) (hOther : other.length = second.length) :
    (∀ c ∈ back.head?, isOpening c = false) ∨
      kind.isFixed = true ∧ wordAfter isWord false first = wordAfter isWord false second := by
  -- Behind a boundary there is no word character, or there is none before it.
  have hBoundary (hOne : boundary isWord (wordAfter isWord false first) back = true)
      (hTwo : boundary isWord (wordAfter isWord false second) back = true) :
      wordAfter isWord false first = wordAfter isWord false second := by
    rw [boundary, bne_iff_ne] at hOne hTwo
    cases hWord : headWord isWord back <;> simp_all
  have hMatch (matcher : List Char → Option Found) {text : List Char} {found : Found}
      (h : (if boundary isWord before text = true then matcher text else none) = some found) : matcher text = some found := by
    split at h
    · exact h
    · cases h
  cases kind with
  | accessKey =>
      have hOne := accessKeyOf_ends hFound (hMatch (accessKeyOf isWord) hFirst)
      have hTwo := accessKeyOf_ends hOther (hMatch (accessKeyOf isWord) hSecond)
      exact Or.inr ⟨rfl, hBoundary hOne hTwo⟩
  | apiKey =>
      have hOne := apiKey_ends hFound
        (hMatch (fun text => apiKeyWords.findSome? fun word => apiKeyOf isWord word text) hFirst)
      have hTwo := apiKey_ends hOther
        (hMatch (fun text => apiKeyWords.findSome? fun word => apiKeyOf isWord word text) hSecond)
      exact Or.inr ⟨rfl, hBoundary hOne hTwo⟩
  | assignment =>
      exact Or.inl (assignment_ends hFound (hMatch (fun text => assignmentWords.findSome? fun word =>
        assignmentOf word text) hFirst))
  | bearer =>
      rcases bearerOf_ends hFound (hMatch bearerOf hFirst) with hStops | hOne
      · exact Or.inl hStops
      · rcases bearerOf_ends hOther (hMatch bearerOf hSecond) with hStops | hTwo
        · exact Or.inl hStops
        · exact Or.inr ⟨rfl, hOne.trans hTwo.symm⟩

end

end Inspection

end VouchSpec
