import Mathlib.Data.List.Infix

/-! Shell patterns, as the branches of a `case` match them. -/

/-- What one place of a shell pattern stands for. -/
inductive Glob.Atom where
  | star
  | one (accepts : Char → Bool)

abbrev Glob : Type := List Glob.Atom

namespace Glob

/-- The whole text matches. -/
def fits : Glob → List Char → Bool
  | [], text => text.isEmpty
  | .star :: rest, text => text.tails.any (fits rest)
  | .one _ :: _, [] => false
  | .one accepts :: rest, c :: text => accepts c && fits rest text

/-- Characters that stand for themselves. -/
def literal (text : List Char) : Glob := text.map fun c => .one (· = c)

/-- `*text*`. -/
def around (text : List Char) : Glob := .star :: (literal text ++ [.star])

/-- `*[class]*`. -/
def aroundOne (accepts : Char → Bool) : Glob := [.star, .one accepts, .star]

theorem fits_star {rest : Glob} {text : List Char} :
    fits (.star :: rest) text = true ↔ ∃ after, after <:+ text ∧ fits rest after = true := by
  simp [fits]

@[simp] theorem fits_only_star (text : List Char) : fits [.star] text = true := by
  rw [fits_star]
  exact ⟨[], List.nil_suffix, rfl⟩

theorem fits_literal_append {rest : Glob} {word text : List Char} :
    fits (literal word ++ rest) text = true ↔ ∃ after, text = word ++ after ∧ fits rest after = true := by
  induction word generalizing text with
  | nil => simp [literal]
  | cons c word ih =>
      cases text with
      | nil => simp [literal, fits]
      | cons d text =>
          show (decide (d = c) && fits (literal word ++ rest) text) = true ↔ _
          rw [Bool.and_eq_true, decide_eq_true_eq, ih]
          constructor
          · rintro ⟨rfl, after, rfl, hRest⟩
            exact ⟨after, rfl, hRest⟩
          · rintro ⟨after, hSame, hRest⟩
            obtain ⟨rfl, rfl⟩ := List.cons.inj hSame
            exact ⟨rfl, after, rfl, hRest⟩

/-- `text*` matches what starts with the text. -/
theorem fits_start {word text : List Char} : fits (literal word ++ [.star]) text = true ↔ word <+: text := by
  rw [fits_literal_append]
  constructor
  · rintro ⟨after, rfl, -⟩
    exact List.prefix_append word after
  · rintro ⟨after, rfl⟩
    exact ⟨after, rfl, fits_only_star after⟩

/-- `*text` matches what ends with the text. -/
theorem fits_suffix {word text : List Char} : fits (.star :: literal word) text = true ↔ word <:+ text := by
  have hWhole : ∀ after, fits (literal word) after = true ↔ after = word := by
    intro after
    have h := @fits_literal_append [] word after
    rw [List.append_nil] at h
    rw [h]
    simp [fits]
  rw [fits_star]
  simp only [hWhole]
  exact exists_eq_right

/-- `*text*` matches what holds the text. -/
theorem fits_around {word text : List Char} : fits (around word) text = true ↔ word <:+: text := by
  rw [around, fits_star, List.infix_iff_prefix_suffix]
  simp only [fits_start]
  exact exists_congr fun after => and_comm

/-- `*[class]*` matches what holds a character of the class. -/
theorem fits_aroundOne {accepts : Char → Bool} {text : List Char} :
    fits (aroundOne accepts) text = true ↔ ∃ c ∈ text, accepts c = true := by
  rw [aroundOne, fits_star]
  constructor
  · rintro ⟨after, hSuffix, hFits⟩
    cases after with
    | nil => cases hFits
    | cons c rest =>
        simp only [fits, Bool.and_eq_true] at hFits
        exact ⟨c, hSuffix.subset List.mem_cons_self, hFits.1⟩
  · rintro ⟨c, hC, hAccepts⟩
    obtain ⟨before, rest, rfl⟩ := List.append_of_mem hC
    refine ⟨c :: rest, List.suffix_append before (c :: rest), ?_⟩
    show (accepts c && fits [.star] rest) = true
    rw [hAccepts, fits_only_star]
    rfl

end Glob
