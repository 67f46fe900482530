import VouchSpec.Inspection.SecretPatterns
import VouchSpec.Inspection.Sample

/-! What the redaction of a line hides: a secret that is recognised in the line and that the
earlier patterns leave to its own. -/

namespace VouchSpec

namespace Inspection

open Substitution

/-- The matches of a rule in a text that begins at a position, and of which the first
characters are taken already. -/
def matchesFrom (isWord : Char → Bool) (rule : Substitution.Rule) : Nat → Nat → Bool → List Char → List Match
  | _, _, _, [] => []
  | start, taken + 1, _, c :: rest => matchesFrom isWord rule (start + 1) taken (isWord c) rest
  | start, 0, before, c :: rest =>
      match rule.matcher before (c :: rest) with
      | some found =>
          { start, text := (c :: rest).take found.length, group := found.group } ::
            matchesFrom isWord rule (start + 1) (found.length - 1) (isWord c) rest
      | none => matchesFrom isWord rule (start + 1) 0 (isWord c) rest

def matchesOf (isWord : Char → Bool) (rule : Substitution.Rule) (text : List Char) : List Match :=
  matchesFrom isWord rule 0 0 false text

namespace SecretKind

def pattern : SecretKind → String
  | .accessKey => "\\bAKIA[0-9A-Z]\x7b16\x7d\\b"
  | .apiKey => "\\b(?:sk|ghp|github_pat)-[A-Za-z0-9_-]\x7b10,\x7d\\b"
  | .assignment => "(?i)\\b(api[_-]?key|token|password|secret)\\s*[:=]\\s*(['\"]?)[^\\s,'\";]+"
  | .bearer => "(?i)\\bBearer\\s+[A-Za-z0-9._~+/-]\x7b10,\x7d=*"

def all : List SecretKind := [.accessKey, .apiKey, .assignment, .bearer]

theorem all_eq (kind : SecretKind) : all = kind.earlier ++ kind :: kind.later := by
  cases kind <;> rfl

end SecretKind

/-- The patterns of secrets are found as the regular expressions of the standard library find
them; which other characters are word characters is left open. -/
structure FindsSecrets (lib : Libraries) (isWord : Char → Bool) : Prop where
  words : WordCharacters isWord
  finds : ∀ (kind : SecretKind) text, lib.finditer kind.pattern text = matchesOf isWord (kind.rule isWord) text

/-- A character of a line as it is searched for secrets. -/
def blanked (c : Char) : Char := if 32 ≤ c.toNat ∨ c.toNat = 9 then c else ' '

def blankedWindow (w : Window) : Window where
  front := w.front.map blanked
  context := w.context.map blanked
  secret := w.secret.map blanked
  back := w.back.map blanked

section
variable (isWord : Char → Bool)

/-- A pattern recognises what a window of a line shows: its secret is the whole match, or
what follows the context. -/
def SecretKind.Recognises (kind : SecretKind) (w : Window) : Prop := Window.FoundBy isWord (kind.rule isWord) w

/-- No match of an earlier pattern reaches over the ends of the parts of a window or is in
what has to stay, and the pattern then finds the window. -/
def SecretKind.Reaches (kind : SecretKind) (w : Window) : Prop :=
  Window.InTurn isWord kind.isFixed (kind.rule isWord) (kind.earlier.map fun other => other.rule isWord) (blankedWindow w)

/-- Windows of two lines that differ in the secret only. -/
structure SecretDiffers (first second : Window) : Prop where
  front : first.front = second.front
  context : first.context = second.context
  back : first.back = second.back

end

/-- The replacements in a line without control characters, one pattern after the other. -/
def replaceSecrets (isWord : Char → Bool) (line : List Char) : List Char :=
  SecretKind.all.foldl (fun line kind => replaceAll isWord (kind.rule isWord) line) line

/-- The end of `_redact`. -/
def excerpt (line : List Char) (limit : Nat) : List Char :=
  let line := ((Lines.words (Lines.strip line)).intersperse [' ']).flatten
  line.take limit ++ if limit < line.length then [Char.ofNat 0x2026] else []

section
variable {isWord starts : Char → Bool} {rule : Substitution.Rule}

/-- The replacement of matches found one after the other, as a replacement in one go. -/
theorem substitute_matchesFrom (isLocal : rule.Local starts) {replacement : Match → List Char}
    (hReplacement : ∀ found, replacement found = rule.replacement found.group) {characters text pending : List Char}
    {start position taken : Nat} {before : Bool} (hText : characters.drop position = pending ++ text.drop taken)
    (hPending : taken = 0 ∨ pending = []) (hPosition : position + pending.length = start + min taken text.length) :
    substitute replacement characters position (matchesFrom isWord rule start taken before text) =
      pending ++ replaceFrom isWord rule taken before text := by
  induction text generalizing pending start position taken before with
  | nil =>
      rw [List.drop_nil] at hText
      rw [matchesFrom, substitute, hText, replaceFrom]
  | cons c rest ih =>
      cases taken with
      | succ taken =>
          rw [matchesFrom, replaceFrom]
          rw [List.length_cons] at hPosition
          obtain hTaken | hNil := hPending
          · cases hTaken
          · exact ih hText (Or.inr hNil) (by omega)
      | zero =>
          rw [List.drop_zero] at hText
          rw [matchesFrom, replaceFrom]
          cases hFound : rule.matcher before (c :: rest) with
          | none =>
              simp only
              have hRest := @ih (pending ++ [c]) (start + 1) position 0 (isWord c) (by simpa using hText) (Or.inl rfl)
                (by simp at hPosition ⊢; omega)
              rw [hRest, List.append_assoc]
              rfl
          | some found =>
              obtain ⟨_, _, _, _, hPositive⟩ := isLocal.begins _ _ _ hFound
              have hStart : start = position + pending.length := by simpa using hPosition.symm
              have hTaken : (characters.drop position).take (start - position) = pending := by
                rw [hText, hStart, Nat.add_sub_cancel_left, List.take_left]
              have hDrop (count : Nat) : characters.drop (start + count) = (c :: rest).drop count := by
                rw [hStart, ← List.drop_drop, ← List.drop_drop, hText, List.drop_left]
              have hRest : characters.drop (start + ((c :: rest).take found.length).length) =
                  [] ++ rest.drop (found.length - 1) := by
                rw [hDrop, List.length_take, List.nil_append, ← List.drop_eq_drop_min]
                conv_lhs => rw [show found.length = found.length - 1 + 1 by omega]
                rfl
              have hSubstituted := @ih [] (start + 1) _ (found.length - 1) (isWord c) hRest (Or.inr rfl) (by
                rw [List.length_take, List.length_cons, List.length_nil]
                omega)
              simp only [substitute]
              rw [hTaken, hReplacement, hSubstituted, List.nil_append, List.append_assoc]

theorem substitute_matchesOf (isLocal : rule.Local starts) {replacement : Match → List Char}
    (hReplacement : ∀ found, replacement found = rule.replacement found.group) (text : List Char) :
    substitute replacement text 0 (matchesOf isWord rule text) = replaceAll isWord rule text :=
  @substitute_matchesFrom isWord starts rule isLocal replacement hReplacement text text [] 0 0 0 false rfl (Or.inl rfl)
    (by simp)

/-- `_redact` applies the rules one after the other. -/
theorem redact_eq {lib : Libraries} (finds : FindsSecrets lib isWord) (line : List Char) (limit : Nat) :
    redact lib line limit = excerpt (replaceSecrets isWord (line.map blanked)) limit := by
  have hKinds : secretRedactions = SecretKind.all.map fun kind =>
      (kind.pattern, decide (kind = SecretKind.assignment)) := rfl
  have hRule (kind : SecretKind) (text : List Char) :
      substitute (fun found => if decide (kind = SecretKind.assignment) = true then found.group ++ "=<redacted>".toList
        else "<redacted>".toList) text 0 (lib.finditer kind.pattern text) = replaceAll isWord (kind.rule isWord) text := by
    rw [finds.finds]
    refine substitute_matchesOf (kind.rule_local finds.words) ?_ text
    intro found
    cases kind <;> rfl
  rw [redact, hKinds, List.foldl_map]
  simp only [hRule]
  rfl

theorem blanked_opening {c : Char} (h : isOpening c = true) : blanked c = c := by
  have hCases := isOpening_cases h
  exact if_pos (Or.inl (by omega))

theorem blanked_not_opening {c : Char} (h : isOpening c = false) : isOpening (blanked c) = false := by
  rw [blanked]
  split
  · exact h
  · decide

theorem isWord_blanked (words : WordCharacters isWord) (c : Char) : isWord (blanked c) = isWord c := by
  rw [blanked]
  split
  · rfl
  · next hControl =>
      rw [words.controls c (by omega)]
      exact words.controls ' ' (by decide)

theorem wordAfter_blanked (words : WordCharacters isWord) (before : Bool) (text : List Char) :
    wordAfter isWord before (text.map blanked) = wordAfter isWord before text := by
  rw [wordAfter, wordAfter, List.getLast?_map]
  cases text.getLast? with
  | none => rfl
  | some c => exact isWord_blanked words c

theorem blankedWindow_inside (w : Window) : (blankedWindow w).inside = w.inside.map blanked := (List.map_append ..).symm

theorem blankedWindow_text (w : Window) : (blankedWindow w).text = w.text.map blanked := by
  rw [Window.text, blankedWindow_inside, Window.text, List.map_append, List.map_append]
  rfl

/-- What is recognised begins with a letter or a digit. -/
theorem SecretKind.Recognises.begins {kind : SecretKind} {w : Window} (words : WordCharacters isWord)
    (h : kind.Recognises isWord w) : ∃ c rest, w.inside = c :: rest ∧ isOpening c = true := by
  obtain ⟨found, hFound, hLength, _⟩ := h.found
  obtain ⟨c, rest, hText, hOpening, hPositive⟩ := (kind.rule_local words).begins _ _ _ hFound
  cases hInside : w.inside with
  | nil =>
      rw [hInside, List.length_nil] at hLength
      omega
  | cons first more =>
      rw [hInside, List.cons_append] at hText
      obtain ⟨rfl, _⟩ := List.cons.inj hText
      exact ⟨first, more, rfl, hOpening⟩

/-- A value has a word before it. -/
theorem SecretKind.Recognises.opens {kind : SecretKind} {w : Window} (h : kind.Recognises isWord w) :
    kind.isFixed = true ∨ w.context ≠ [] := by
  cases kind with
  | assignment =>
      right
      obtain ⟨found, hFound, _, hKept⟩ := h.found
      change Inspection.assignment isWord _ _ = some found at hFound
      rw [Inspection.assignment] at hFound
      split at hFound
      · obtain ⟨word, hWord, hLength, _, _⟩ := assignment_word hFound
        have hHead := assignmentWords_letters word hWord
        intro hNil
        rw [hKept, hNil, List.length_nil, Nat.le_zero, List.length_eq_zero_iff] at hLength
        rw [hLength] at hHead
        cases hHead
      · cases hFound
  | accessKey => exact Or.inl rfl
  | apiKey => exact Or.inl rfl
  | bearer => exact Or.inl rfl

theorem SecretDiffers.alike (words : WordCharacters isWord) {kind : SecretKind} {first second : Window}
    (differs : SecretDiffers first second) (hFirst : kind.Recognises isWord first) (hSecond : kind.Recognises isWord second) :
    Window.Alike isWord isOpening kind.isFixed (blankedWindow first) (blankedWindow second) := by
  have hBegins {w : Window} (h : kind.Recognises isWord w) :
      ∃ c rest, (blankedWindow w).inside = c :: rest ∧ isOpening c = true := by
    obtain ⟨c, rest, hInside, hOpening⟩ := h.begins words
    exact ⟨c, rest.map blanked, by rw [blankedWindow_inside, hInside, List.map_cons, blanked_opening hOpening], hOpening⟩
  refine ⟨congrArg (List.map blanked) differs.front, congrArg (List.map blanked) differs.context,
    congrArg (List.map blanked) differs.back, ?_, hBegins hFirst, hBegins hSecond, ?_⟩
  · refine hFirst.opens.imp_right ?_
    intro hContext hNil
    exact hContext (List.map_eq_nil_iff.mp hNil)
  · obtain ⟨found, hFound, hLength, _⟩ := hFirst.found
    obtain ⟨other, hOther, hOtherLength, _⟩ := hSecond.found
    rw [← differs.front, ← differs.back] at hOther
    rcases kind.settles hFound hLength hOther hOtherLength with hHead | ⟨hFixed, hSame⟩
    · left
      intro c hMem
      change c ∈ (first.back.map blanked).head? at hMem
      rw [List.head?_map] at hMem
      obtain ⟨head, hBack, rfl⟩ := Option.map_eq_some_iff.mp hMem
      exact blanked_not_opening (hHead head hBack)
    · right
      rw [blankedWindow_inside, blankedWindow_inside, wordAfter_blanked words, wordAfter_blanked words]
      exact ⟨hFixed, hSame⟩

theorem blanked_upper (c : Char) : isUpperOrDigit (blanked c) = isUpperOrDigit c := by
  rw [blanked]
  split
  · rfl
  · next hControl =>
      have hNot : isUpperOrDigit c = false := by
        simp only [isUpperOrDigit, Bool.or_eq_false_iff, Bool.and_eq_false_iff, decide_eq_false_iff_not]
        omega
      rw [hNot]
      decide

theorem boundary_blanked (words : WordCharacters isWord) (before : Bool) (text : List Char) :
    boundary isWord before (text.map blanked) = boundary isWord before text := by
  cases text with
  | nil => rfl
  | cons c rest => exact congrArg (before != ·) (isWord_blanked words c)

theorem exactRun_blanked (words : WordCharacters isWord) (length : Nat) (before : Bool) (text : List Char) :
    exactRun isWord isUpperOrDigit length before (text.map blanked) = exactRun isWord isUpperOrDigit length before text := by
  induction length generalizing before text with
  | zero => exact boundary_blanked words before text
  | succ length ih =>
      cases text with
      | nil => rfl
      | cons c rest => rw [List.map_cons, exactRun, exactRun, blanked_upper, isWord_blanked words, ih]

/-- A word of letters is found where it was. -/
theorem prefix_blanked {word : List Char} (hWord : ∀ c ∈ word, isOpening c = true) (text : List Char) :
    word.isPrefixOf (text.map blanked) = word.isPrefixOf text := by
  induction word generalizing text with
  | nil => rfl
  | cons letter word ih =>
      cases text with
      | nil => rfl
      | cons c rest =>
          have hSame : (letter == blanked c) = (letter == c) := by
            rw [blanked]
            split
            · rfl
            · have hLetter := hWord letter List.mem_cons_self
              have hBlank : letter ≠ ' ' := isOpening_ne hLetter (by decide)
              have hControl : letter ≠ c := by
                rintro rfl
                have hCases := isOpening_cases hLetter
                omega
              rw [beq_false_of_ne hBlank, beq_false_of_ne hControl]
          rw [List.map_cons, List.isPrefixOf, List.isPrefixOf, hSame, ih fun c hMem => hWord c (List.mem_cons_of_mem _ hMem)]

theorem accessKey_blanked (words : WordCharacters isWord) (before : Bool) (text : List Char) :
    Inspection.accessKey isWord before (text.map blanked) = Inspection.accessKey isWord before text := by
  have hWord : ∀ c ∈ "AKIA".toList, isOpening c = true :=
    List.all_eq_true.mp (show "AKIA".toList.all isOpening = true by decide)
  rw [Inspection.accessKey, Inspection.accessKey, accessKeyOf, accessKeyOf, boundary_blanked words, prefix_blanked hWord,
    ← List.map_drop, exactRun_blanked words]

theorem replaceFront_blanked (words : WordCharacters isWord)
    (same : ∀ before text, rule.matcher before (text.map blanked) = rule.matcher before text) (taken : Nat) (before : Bool)
    (front rest : List Char) :
    (replaceFront isWord rule taken before (front.map blanked) (rest.map blanked)).isSome =
      (replaceFront isWord rule taken before front rest).isSome := by
  induction front generalizing taken before with
  | nil => cases taken <;> rfl
  | cons c front ih =>
      cases taken with
      | succ taken =>
          rw [List.map_cons, replaceFront, replaceFront, isWord_blanked words]
          exact ih taken (isWord c)
      | zero =>
          have hMatch := same before (c :: (front ++ rest))
          rw [List.map_cons, List.map_append] at hMatch
          rw [List.map_cons, replaceFront, replaceFront, hMatch, isWord_blanked words]
          cases rule.matcher before (c :: (front ++ rest)) with
          | none => simp only [Option.isSome_map, ih]
          | some found => simp only [Option.isSome_map, ih]

/-- An access key that is recognised is always reached: no pattern comes before. -/
theorem SecretKind.Recognises.reaches_accessKey (words : WordCharacters isWord) {w : Window}
    (h : SecretKind.accessKey.Recognises isWord w) : SecretKind.accessKey.Reaches isWord w := by
  have hAll : w.inside.map blanked ++ w.back.map blanked = (w.inside ++ w.back).map blanked := (List.map_append ..).symm
  obtain ⟨found, hFound, hLength, hKept⟩ := h.found
  constructor
  · have hFront := @replaceFront_blanked isWord (SecretKind.accessKey.rule isWord) words (accessKey_blanked words) 0 false
      w.front (w.inside ++ w.back)
    rw [← hAll, ← blankedWindow_inside] at hFront
    exact hFront.trans h.front
  · refine ⟨found, ?_, ?_, ?_⟩
    · rw [blankedWindow_inside]
      change Inspection.accessKey isWord (wordAfter isWord false (w.front.map blanked)) (_ ++ w.back.map blanked) = _
      rw [hAll, wordAfter_blanked words, accessKey_blanked words]
      exact hFound
    · rw [blankedWindow_inside, List.length_map, hLength]
    · rw [hKept]
      exact (List.length_map ..).symm

end

namespace Sample

/-- The word characters among the letters, the digits and the underscore. -/
def isPlainWord (c : Char) : Bool := isOpening c || Pattern.isUnderscore c

def secretMatches (pattern : String) (line : List Char) : List Match :=
  match SecretKind.all.find? fun kind => kind.pattern = pattern with
  | some kind => matchesOf isPlainWord (kind.rule isPlainWord) line
  | none => []

def secretLibraries : Libraries := { libraries with finditer := secretMatches }

theorem secretLibraries_finds : FindsSecrets secretLibraries isPlainWord where
  words := {
    letters := fun c hOpening => by
      rw [isPlainWord, hOpening]
      rfl
    controls := fun c hControl => by
      have hNot : isOpening c = false := by
        rw [Bool.eq_false_iff]
        intro hOpening
        have hCases := isOpening_cases hOpening
        omega
      rw [isPlainWord, hNot, Pattern.isUnderscore]
      simp only [Bool.false_or, decide_eq_false_iff_not]
      omega }
  finds kind text := by
    change secretMatches kind.pattern text = _
    have hFind : (SecretKind.all.find? fun other => other.pattern = kind.pattern) = some kind := by
      cases kind <;> decide +kernel
    rw [secretMatches, hFind]

/-- A bearer token behind a key and a colon. -/
def tokenWindow (secret : List Char) : Window :=
  { front := "token: ".toList, context := "Bearer ".toList, secret, back := [] }

theorem tokenWindow_differs (first second : List Char) : SecretDiffers (tokenWindow first) (tokenWindow second) :=
  ⟨rfl, rfl, rfl⟩

/-- The value of the key ends after `Bearer`, and the token stays. -/
theorem token_shown :
    excerpt (replaceSecrets isPlainWord ((tokenWindow "aaaaaaaaaaaa".toList).text.map blanked)) 240 =
        "token=<redacted> aaaaaaaaaaaa".toList ∧
      excerpt (replaceSecrets isPlainWord ((tokenWindow "bbbbbbbbbbbb".toList).text.map blanked)) 240 =
        "token=<redacted> bbbbbbbbbbbb".toList := by
  decide +kernel

theorem tokenWindow_recognised :
    SecretKind.bearer.Recognises isPlainWord (tokenWindow "aaaaaaaaaaaa".toList) ∧
      SecretKind.bearer.Recognises isPlainWord (tokenWindow "bbbbbbbbbbbb".toList) :=
  ⟨⟨by decide +kernel, { length := 19, kept := 7, group := [] }, by decide +kernel, by decide +kernel, by decide +kernel⟩,
    ⟨by decide +kernel, { length := 19, kept := 7, group := [] }, by decide +kernel, by decide +kernel, by decide +kernel⟩⟩

/-- The value of a password, with a comma after it. -/
def passwordWindow (secret : List Char) : Window :=
  { front := "my ".toList, context := "password = ".toList, secret, back := ", twice".toList }

/-- A password that no earlier pattern is in. -/
theorem passwordWindow_reached {secret : List Char}
    (hAccess : (blankedWindow (passwordWindow secret)).pass isPlainWord (SecretKind.accessKey.rule isPlainWord) =
      some (blankedWindow (passwordWindow secret)))
    (hApi : (blankedWindow (passwordWindow secret)).pass isPlainWord (SecretKind.apiKey.rule isPlainWord) =
      some (blankedWindow (passwordWindow secret)))
    (hFound : Window.FoundBy isPlainWord (SecretKind.assignment.rule isPlainWord) (blankedWindow (passwordWindow secret))) :
    SecretKind.assignment.Reaches isPlainWord (passwordWindow secret) :=
  ⟨_, ⟨hAccess, rfl, fun hFixed => nomatch hFixed⟩, _, ⟨hApi, rfl, fun hFixed => nomatch hFixed⟩, hFound⟩

end Sample

end Inspection

end VouchSpec
