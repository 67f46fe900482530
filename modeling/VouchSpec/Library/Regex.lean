import Mathlib.Computability.Language

/-! Regular expressions with bounded repetition: a matcher, and the language it
decides. -/

inductive Regex where
  | one (accepts : Char → Bool)
  | seq (first second : Regex)
  | times (least most : Nat) (inner : Regex)

namespace Regex

/-- What is left after between `least` and `least + extra` steps. -/
def repeated (step : List Char → List (List Char)) : Nat → Nat → List Char → List (List Char)
  | 0, 0, text => [text]
  | 0, extra + 1, text => text :: (step text).flatMap (repeated step 0 extra)
  | least + 1, extra, text => (step text).flatMap (repeated step least extra)

/-- What can be left of a text after a match at its start. -/
def rests : Regex → List Char → List (List Char)
  | one accepts, text =>
      match text with
      | [] => []
      | c :: rest => if accepts c = true then [rest] else []
  | seq first second, text => (first.rests text).flatMap second.rests
  | times least most inner, text => if least ≤ most then repeated inner.rests least (most - least) text else []

/-- The whole text matches. -/
def fullmatch (regex : Regex) (text : List Char) : Bool := [] ∈ regex.rests text

/-- The texts that an expression stands for. -/
def language : Regex → Language Char
  | one accepts => {word | ∃ c, accepts c = true ∧ word = [c]}
  | seq first second => first.language * second.language
  | times least most inner => {word | ∃ count, least ≤ count ∧ count ≤ most ∧ word ∈ inner.language ^ count}

theorem mem_repeated {step : List Char → List (List Char)} {words : Language Char}
    (hStep : ∀ text rest, rest ∈ step text ↔ ∃ word ∈ words, text = word ++ rest) (least extra : Nat)
    (text rest : List Char) : rest ∈ repeated step least extra text ↔
      ∃ count, least ≤ count ∧ count ≤ least + extra ∧ ∃ word ∈ words ^ count, text = word ++ rest := by
  fun_induction repeated step least extra text with
  | case1 text =>
      rw [List.mem_singleton]
      constructor
      · rintro rfl
        exact ⟨0, le_refl 0, le_refl 0, [], by simp, rfl⟩
      · rintro ⟨count, -, hCount, word, hWord, rfl⟩
        obtain rfl : count = 0 := by omega
        rw [pow_zero, Language.mem_one] at hWord
        rw [hWord, List.nil_append]
  | case2 text extra ih =>
      rw [List.mem_cons, List.mem_flatMap]
      constructor
      · rintro (rfl | ⟨middle, hMiddle, hRest⟩)
        · exact ⟨0, le_refl 0, Nat.zero_le _, [], by simp, rfl⟩
        · obtain ⟨word, hWord, rfl⟩ := (hStep _ _).mp hMiddle
          obtain ⟨count, -, hCount, more, hMore, rfl⟩ := (ih middle).mp hRest
          refine ⟨count + 1, Nat.zero_le _, by omega, word ++ more, ?_, (List.append_assoc _ _ _).symm⟩
          rw [pow_succ']
          exact Language.append_mem_mul hWord hMore
      · rintro ⟨count, -, hCount, word, hWord, rfl⟩
        cases count with
        | zero =>
            rw [pow_zero, Language.mem_one] at hWord
            exact Or.inl (by rw [hWord, List.nil_append])
        | succ count =>
            rw [pow_succ', Language.mem_mul] at hWord
            obtain ⟨first, hFirst, more, hMore, rfl⟩ := hWord
            refine Or.inr ⟨more ++ rest, (hStep _ _).mpr ⟨first, hFirst, List.append_assoc _ _ _⟩, ?_⟩
            exact (ih _).mpr ⟨count, Nat.zero_le _, by omega, more, hMore, rfl⟩
  | case3 least extra text ih =>
      rw [List.mem_flatMap]
      constructor
      · rintro ⟨middle, hMiddle, hRest⟩
        obtain ⟨word, hWord, rfl⟩ := (hStep _ _).mp hMiddle
        obtain ⟨count, hLeast, hCount, more, hMore, rfl⟩ := (ih middle).mp hRest
        refine ⟨count + 1, by omega, by omega, word ++ more, ?_, (List.append_assoc _ _ _).symm⟩
        rw [pow_succ']
        exact Language.append_mem_mul hWord hMore
      · rintro ⟨count, hLeast, hCount, word, hWord, rfl⟩
        cases count with
        | zero => omega
        | succ count =>
            rw [pow_succ', Language.mem_mul] at hWord
            obtain ⟨first, hFirst, more, hMore, rfl⟩ := hWord
            refine ⟨more ++ rest, (hStep _ _).mpr ⟨first, hFirst, List.append_assoc _ _ _⟩, ?_⟩
            exact (ih _).mpr ⟨count, by omega, by omega, more, hMore, rfl⟩

/-- A match takes a word of the language off. -/
theorem mem_rests (regex : Regex) (text rest : List Char) :
    rest ∈ regex.rests text ↔ ∃ word ∈ regex.language, text = word ++ rest := by
  induction regex generalizing text rest with
  | one accepts =>
      cases text with
      | nil =>
          simp only [rests, List.not_mem_nil, false_iff]
          rintro ⟨_, ⟨c, -, rfl⟩, h⟩
          cases h
      | cons c more =>
          unfold rests
          constructor
          · intro h
            by_cases hAccepts : accepts c = true
            · simp only [hAccepts, if_true, List.mem_singleton] at h
              exact ⟨[c], ⟨c, hAccepts, rfl⟩, by rw [h]; rfl⟩
            · simp [hAccepts] at h
          · rintro ⟨_, ⟨found, hAccepts, rfl⟩, h⟩
            obtain ⟨rfl, rfl⟩ := List.cons.inj h
            simp [hAccepts]
  | seq first second ihFirst ihSecond =>
      rw [rests, List.mem_flatMap, language]
      constructor
      · rintro ⟨middle, hMiddle, hRest⟩
        obtain ⟨word, hWord, rfl⟩ := (ihFirst _ _).mp hMiddle
        obtain ⟨more, hMore, rfl⟩ := (ihSecond _ _).mp hRest
        exact ⟨word ++ more, Language.append_mem_mul hWord hMore, (List.append_assoc _ _ _).symm⟩
      · rintro ⟨word, hWord, rfl⟩
        obtain ⟨left, hLeft, right, hRight, rfl⟩ := Language.mem_mul.mp hWord
        exact ⟨right ++ rest, (ihFirst _ _).mpr ⟨left, hLeft, List.append_assoc _ _ _⟩,
          (ihSecond _ _).mpr ⟨right, hRight, rfl⟩⟩
  | times least most inner ih =>
      rw [rests]
      split
      · next hBounds =>
          rw [mem_repeated ih]
          constructor
          · rintro ⟨count, hLeast, hMost, word, hWord, rfl⟩
            exact ⟨word, ⟨count, hLeast, by omega, hWord⟩, rfl⟩
          · rintro ⟨word, ⟨count, hLeast, hMost, hWord⟩, rfl⟩
            exact ⟨count, hLeast, by omega, word, hWord, rfl⟩
      · next hBounds =>
          simp only [List.not_mem_nil, false_iff]
          rintro ⟨word, ⟨count, hLeast, hMost, -⟩, -⟩
          omega

/-- The matcher decides the language. -/
theorem fullmatch_iff {regex : Regex} {text : List Char} : regex.fullmatch text = true ↔ text ∈ regex.language := by
  rw [fullmatch, decide_eq_true_iff, mem_rests]
  constructor
  · rintro ⟨word, hWord, rfl⟩
    rwa [List.append_nil]
  · intro hText
    exact ⟨text, hText, (List.append_nil text).symm⟩

/-- The words of a repeated class: as many of its characters. -/
theorem mem_times_one {accepts : Char → Bool} {least most : Nat} {text : List Char} :
    text ∈ (times least most (one accepts)).language ↔
      least ≤ text.length ∧ text.length ≤ most ∧ ∀ c ∈ text, accepts c = true := by
  have hPower : ∀ count, text ∈ (one accepts).language ^ count ↔
      text.length = count ∧ ∀ c ∈ text, accepts c = true := by
    intro count
    induction count generalizing text with
    | zero =>
        rw [pow_zero, Language.mem_one, List.length_eq_zero_iff]
        constructor
        · rintro rfl
          exact ⟨rfl, by simp⟩
        · exact fun h => h.1
    | succ count ih =>
        rw [pow_succ', Language.mem_mul]
        constructor
        · rintro ⟨_, ⟨c, hC, rfl⟩, rest, hRest, rfl⟩
          obtain ⟨hLength, hAll⟩ := ih.mp hRest
          refine ⟨by simp [hLength], ?_⟩
          intro other hOther
          rcases List.mem_cons.mp hOther with rfl | hMember
          · exact hC
          · exact hAll other hMember
        · rintro ⟨hLength, hAll⟩
          cases text with
          | nil => cases hLength
          | cons c rest =>
              refine ⟨[c], ⟨c, hAll c List.mem_cons_self, rfl⟩, rest, ?_, rfl⟩
              exact ih.mpr ⟨Nat.succ.inj hLength, fun other hOther => hAll other (List.mem_cons_of_mem _ hOther)⟩
  constructor
  · rintro ⟨count, hLeast, hMost, hText⟩
    obtain ⟨rfl, hAll⟩ := (hPower count).mp hText
    exact ⟨hLeast, hMost, hAll⟩
  · rintro ⟨hLeast, hMost, hAll⟩
    exact ⟨text.length, hLeast, hMost, (hPower _).mpr ⟨rfl, hAll⟩⟩

/-- One character before a word. -/
theorem mem_seq_one {accepts : Char → Bool} {second : Regex} {text : List Char} :
    text ∈ (seq (one accepts) second).language ↔
      ∃ c rest, text = c :: rest ∧ accepts c = true ∧ rest ∈ second.language := by
  rw [language, Language.mem_mul]
  constructor
  · rintro ⟨_, ⟨c, hC, rfl⟩, rest, hRest, rfl⟩
    exact ⟨c, rest, rfl, hC, hRest⟩
  · rintro ⟨c, rest, rfl, hC, hRest⟩
    exact ⟨[c], ⟨c, hC, rfl⟩, rest, hRest, rfl⟩

/-- One word. -/
def word : List Char → Regex
  | [] => .times 0 0 (.one fun _ => true)
  | c :: rest => .seq (.one fun found => found = c) (word rest)

/-- A text as it stands. -/
def literal (text : String) : Regex := word text.toList

theorem mem_word {characters text : List Char} : text ∈ (word characters).language ↔ text = characters := by
  induction characters generalizing text with
  | nil =>
      rw [word, mem_times_one]
      simp
  | cons c rest ih =>
      rw [word, mem_seq_one]
      simp [ih]

theorem mem_literal {text : String} {found : List Char} : found ∈ (literal text).language ↔ found = text.toList :=
  mem_word

theorem mem_seq_literal {text : String} {regex : Regex} {rest : List Char} (hRest : rest ∈ regex.language) :
    text.toList ++ rest ∈ (seq (literal text) regex).language :=
  Language.append_mem_mul (mem_literal.mpr rfl) hRest

/-- `$` at the end of a pattern lets one line feed follow. -/
def anchored (regex : Regex) : Regex := .seq regex (.times 0 1 (.one fun c => c = Char.ofNat 10))

theorem mem_anchored {regex : Regex} {text : List Char} :
    text ∈ (anchored regex).language ↔
      ∃ found ∈ regex.language, text = found ∨ text = found ++ [Char.ofNat 10] := by
  rw [anchored, language, Language.mem_mul]
  constructor
  · rintro ⟨found, hFound, ending, hEnding, rfl⟩
    obtain ⟨-, hLength, hCharacters⟩ := mem_times_one.mp hEnding
    refine ⟨found, hFound, ?_⟩
    cases ending with
    | nil => exact Or.inl (List.append_nil found)
    | cons c rest =>
        obtain rfl : rest = [] := List.eq_nil_of_length_eq_zero (by simpa using hLength)
        rw [of_decide_eq_true (hCharacters c List.mem_cons_self)]
        exact Or.inr rfl
  · rintro ⟨found, hFound, rfl | rfl⟩
    · exact ⟨text, hFound, [], mem_times_one.mpr (by simp), List.append_nil text⟩
    · exact ⟨found, hFound, [Char.ofNat 10], mem_times_one.mpr (by simp), rfl⟩

theorem anchored_of_mem {regex : Regex} {text : List Char} (hText : text ∈ regex.language) :
    text ∈ (anchored regex).language :=
  mem_anchored.mpr ⟨text, hText, Or.inl rfl⟩

end Regex
