import VouchSpec.Library.Loops
import VouchSpec.Inspection.Capture
import VouchSpec.Inspection.References
import VouchSpec.Inspection.Receipt

/-! Which texts of a receipt can be serialised: a lone surrogate can stand only in a
claim, in the name of an unknown field, and in a declared dependency. -/

namespace VouchSpec

namespace Inspection

/-- No code point is a lone surrogate. -/
def Encodable (text : Text) : Prop := ∀ point ∈ text, ∃ c, point = .char c

theorem encodable_ofString (value : String) : Encodable (Text.ofString value) := by
  intro point hPoint
  obtain ⟨c, -, rfl⟩ := List.mem_map.mp hPoint
  exact ⟨c, rfl⟩

theorem encodable_append {first second : Text} : Encodable (first ++ second) ↔ Encodable first ∧ Encodable second := by
  simp only [Encodable, List.mem_append, or_imp, forall_and]

theorem Encodable.take {text : Text} (h : Encodable text) (count : Nat) : Encodable (text.take count) :=
  fun point hPoint => h point (List.mem_of_mem_take hPoint)

theorem encodable_iff {text : Text} : Encodable text ↔ ∃ value, text = Text.ofString value := by
  constructor
  · intro h
    induction text with
    | nil => exact ⟨"", rfl⟩
    | cons point rest ih =>
        obtain ⟨c, rfl⟩ := h point List.mem_cons_self
        obtain ⟨value, rfl⟩ := ih fun other hOther => h other (List.mem_cons_of_mem _ hOther)
        exact ⟨String.ofList (c :: value.toList), by simp [Text.ofString]⟩
  · rintro ⟨value, rfl⟩
    exact encodable_ofString value

theorem encoded_ok_iff {text : Text} : (∃ value, encoded text = .ok value) ↔ Encodable text := by
  rw [encodable_iff]
  constructor
  · rintro ⟨value, hValue⟩
    unfold encoded at hValue
    split at hValue
    · next found hFound => exact ⟨found, Text.encode?_eq_some.mp hFound⟩
    · cases hValue
  · rintro ⟨value, rfl⟩
    exact ⟨.str value, by rw [encoded, Text.encode?_ofString]⟩

/-- A map of code points that keeps surrogates. -/
theorem encodable_take_map {change : Point → Point} (hChange : ∀ point, (∃ c, change point = .char c) ↔
    ∃ c, point = .char c) (text : Text) (count : Nat) :
    Encodable ((text.map change).take count) ↔ Encodable (text.take count) := by
  simp only [Encodable, ← List.map_take, List.forall_mem_map, hChange]

/-- Blanks in the place of some characters. -/
theorem blanked_char {condition : Point → Prop} [DecidablePred condition]
    (hCondition : ∀ point, condition point → point.isControl = true) (point : Point) :
    (∃ c, (if condition point then Point.char ' ' else point) = .char c) ↔ ∃ c, point = .char c := by
  split
  · next h =>
      cases point with
      | char c => simp
      | surrogate code => exact absurd (hCondition _ h) (by simp [Point.isControl])
  · rfl

theorem encodable_cleaned (text : Text) (count : Nat) :
    Encodable ((cleaned text).take count) ↔ Encodable (text.take count) :=
  encodable_take_map (blanked_char fun _ h => h.1) text count

/-- A claim is serialised when it has no surrogate within its limit. -/
theorem encodedClaim_ok_iff {value : Value} {limit : Nat} : (∃ json, encodedClaim (safeClaim value limit) = .ok json) ↔
    ∀ text, value = .text text → Encodable (text.take limit) := by
  cases value with
  | text text =>
      simp only [safeClaim, encodedClaim, encoded_ok_iff, Value.text.injEq, forall_eq']
      exact encodable_take_map (blanked_char fun _ h => h.1) text limit
  | _ => simp [safeClaim, encodedClaim]

/-- A finding that can be serialised. -/
theorem finding_ok_iff {finding : Finding} : (∃ json, finding.json = .ok json) ↔ Encodable finding.message := by
  rw [← encoded_ok_iff]
  simp only [Finding.json, Except.bind_eq_ok_iff, Except.pure_eq_ok_iff]
  constructor
  · rintro ⟨_, message, hMessage, -⟩
    exact ⟨message, hMessage⟩
  · rintro ⟨message, hMessage⟩
    exact ⟨_, message, hMessage, rfl⟩

theorem dependency_ok_iff {dependency : Dependency} :
    (∃ json, dependency.json = .ok json) ↔ Encodable dependency.declaration := by
  rw [← encoded_ok_iff]
  simp only [Dependency.json, Except.bind_eq_ok_iff, Except.pure_eq_ok_iff]
  constructor
  · rintro ⟨_, declaration, hDeclaration, -⟩
    exact ⟨declaration, hDeclaration⟩
  · rintro ⟨declaration, hDeclaration⟩
    exact ⟨_, declaration, hDeclaration, rfl⟩

theorem encodable_finding (ruleId : String) (severity : Severity) (message : String) (line : Option Nat) :
    Encodable (findingOf ruleId severity (Text.ofString message) line).message :=
  (encodable_cleaned _ 500).mpr ((encodable_ofString message).take 500)

/-- The name of an unknown field is serialised when it has no surrogate where it is shown. -/
theorem encodable_unknownField (field : Text) :
    Encodable (unknownFieldFinding field).message ↔ Encodable (field.take 200) := by
  have hLength : (Text.ofString "unrecognized frontmatter field: " ++ displayField field).length ≤ 500 := by
    have hName : (Text.ofString "unrecognized frontmatter field: ").length = 32 := by decide
    have hField : (displayField field).length ≤ 200 := List.length_take_le _ _
    rw [List.length_append]
    omega
  have hShown : Encodable (displayField field) ↔ Encodable (field.take 200) :=
    encodable_take_map (blanked_char fun _ h => h) field 200
  show Encodable ((cleaned _).take 500) ↔ _
  rw [encodable_cleaned, List.take_of_length_le hLength, encodable_append, hShown]
  exact and_iff_right (encodable_ofString _)

/-- The findings whose messages cannot fail. -/
def Safe (findings : List Finding) : Prop := ∀ finding ∈ findings, Encodable finding.message

theorem safe_nil : Safe [] := by simp [Safe]

theorem safe_append {first second : List Finding} : Safe (first ++ second) ↔ Safe first ∧ Safe second := by
  simp only [Safe, List.mem_append, or_imp, forall_and]

theorem safe_finding (ruleId : String) (severity : Severity) (message : String) :
    Safe [finding ruleId severity message] := by
  intro found hFound
  rw [List.mem_singleton.mp hFound]
  exact encodable_finding ruleId severity message none

theorem safe_findingIf (condition : Bool) (ruleId message : String) : Safe (findingIf condition ruleId message) := by
  unfold findingIf
  split
  · exact safe_finding _ _ _
  · exact safe_nil

theorem safe_nameFindings (parentName : String) (value : Value) : Safe (nameFindings parentName value) := by
  unfold nameFindings
  split
  · split
    · exact safe_finding _ _ _
    · exact safe_append.mpr ⟨safe_findingIf _ _ _, safe_findingIf _ _ _⟩
  · exact safe_finding _ _ _

theorem safe_descriptionFindings (value : Value) : Safe (descriptionFindings value) := by
  unfold descriptionFindings
  split
  · split
    · exact safe_finding _ _ _
    · exact safe_findingIf _ _ _
  · exact safe_finding _ _ _

theorem safe_optionalTextFindings (ruleId message : String) (value : Value) :
    Safe (optionalTextFindings ruleId message value) := by
  unfold optionalTextFindings
  split
  · exact safe_nil
  · exact safe_findingIf _ _ _

theorem safe_compatibilityFindings (value : Value) : Safe (compatibilityFindings value) := by
  unfold compatibilityFindings
  split
  · exact safe_nil
  · split
    · exact safe_finding _ _ _
    · exact safe_findingIf _ _ _
  · exact safe_finding _ _ _

theorem safe_extraMetadataFindings (value : Value) : Safe (extraMetadataFindings value) := by
  unfold extraMetadataFindings
  split
  · exact safe_nil
  · exact safe_findingIf _ _ _
  · exact safe_finding _ _ _

/-- Only the names of unknown fields are shown as they are. -/
theorem validateMetadata_safe {metadata : Value} {parentName : String} : ∀ finding ∈ validateMetadata metadata parentName,
    Encodable finding.message ∨ ∃ field ∈ unknownFields metadata, finding = unknownFieldFinding field := by
  intro finding hFinding
  rcases List.mem_append.mp hFinding with hFixed | hField
  · left
    revert finding
    intro finding _ hFixed
    refine (show Safe _ from ?_) finding hFixed
    simp only [safe_append]
    exact ⟨⟨⟨⟨⟨⟨safe_nameFindings _ _, safe_descriptionFindings _⟩, safe_optionalTextFindings _ _ _⟩,
      safe_compatibilityFindings _⟩, safe_extraMetadataFindings _⟩, safe_optionalTextFindings _ _ _⟩,
      safe_findingIf _ _ _⟩
  · right
    obtain ⟨field, hKnown, rfl⟩ := List.mem_map.mp hField
    exact ⟨field, hKnown, rfl⟩

section
variable {lib : Libraries} {snapshot : Snapshot} {limits : ScanLimits}

theorem safe_frontmatter {text : List Char} {frontmatter : Frontmatter}
    (h : parseFrontmatter lib text = .ok frontmatter) : Safe frontmatter.findings := by
  unfold parseFrontmatter at h
  split at h
  · rw [← Except.pure_eq_ok_iff.mp h]
    exact safe_finding _ _ _
  · simp only at h
    split at h
    · rw [← Except.pure_eq_ok_iff.mp h]
      exact safe_finding _ _ _
    · split at h
      · rw [← Except.pure_eq_ok_iff.mp h]
        exact safe_finding _ _ _
      · split at h
        · rw [← Except.pure_eq_ok_iff.mp h]
          exact safe_finding _ _ _
        · split at h
          · rw [← Except.pure_eq_ok_iff.mp h]
            exact safe_finding _ _ _
          · split at h
            · cases h
            · obtain ⟨_, -, h⟩ := Except.bind_eq_ok_iff.mp h
              rw [← Except.pure_eq_ok_iff.mp h]
              exact safe_finding _ _ _
            · rw [← Except.pure_eq_ok_iff.mp h]
              exact safe_nil
            · rw [← Except.pure_eq_ok_iff.mp h]
              exact safe_finding _ _ _

theorem Referred.safe {references after : References} {candidate : Candidate}
    (referred : Referred lib snapshot references candidate after) (hSafe : Safe references.findings) :
    Safe after.findings := by
  have hOne : ∀ ruleId severity message line, Safe [findingOf ruleId severity (Text.ofString message) line] := by
    intro ruleId severity message line found hFound
    rw [List.mem_singleton.mp hFound]
    exact encodable_finding ruleId severity message line
  cases referred with
  | known => exact hSafe
  | outside path message hPath => exact safe_append.mpr ⟨hSafe, hOne _ _ _ _⟩
  | external target hTarget =>
      unfold References.addExternal
      split <;> exact hSafe
  | inside relative hLookedUp hResolved =>
      refine safe_append.mpr ⟨hSafe, ?_⟩
      split
      · exact hOne _ _ _ _
      · exact safe_nil

theorem safe_loop {candidates : List Candidate} {references after : References}
    (h : candidates.foldlM (References.step lib snapshot) references = .ok after) (hSafe : Safe references.findings) :
    Safe after.findings := by
  induction candidates generalizing references with
  | nil =>
      rw [← Except.pure_eq_ok_iff.mp h]
      exact hSafe
  | cons candidate rest ih =>
      simp only [List.foldlM_cons, Except.bind_eq_ok_iff] at h
      obtain ⟨next, hStep, hRest⟩ := h
      exact ih hRest ((step_referred hStep).safe hSafe)

theorem safe_extractReferences {body : List Char} {bodyStartLine : Nat} {references : References}
    (h : extractReferences lib limits body snapshot bodyStartLine = .ok references) : Safe references.findings := by
  unfold extractReferences at h
  refine safe_loop h ?_
  simp only
  split
  · exact safe_finding _ _ _
  · exact safe_nil

/-- A finding of a skill is safe, or names an unknown field. -/
theorem readSkill_safe {text : List Char} {metadata : Value} {findings : List Finding} {references : References}
    (h : readSkill lib limits snapshot text = .ok (metadata, findings, references)) : ∀ finding ∈ findings,
      Encodable finding.message ∨ ∃ field ∈ unknownFields metadata, finding = unknownFieldFinding field := by
  simp only [readSkill, Except.bind_eq_ok_iff, Except.pure_eq_ok_iff, Prod.mk.injEq] at h
  obtain ⟨frontmatter, hFrontmatter, found, hReferences, rfl, rfl, -⟩ := h
  intro finding hFinding
  have hMember := (List.perm_insertionSort _ _).mem_iff.mp hFinding
  simp only [List.append_assoc, List.mem_append] at hMember
  rcases hMember with hFirst | hMetadata | hBody | hLong | hReference
  · exact Or.inl (safe_frontmatter hFrontmatter finding hFirst)
  · exact validateMetadata_safe finding hMetadata
  · left
    split at hBody
    · exact safe_finding _ _ _ finding hBody
    · cases hBody
  · left
    split at hLong
    · exact safe_finding _ _ _ finding hLong
    · cases hLong
  · exact Or.inl (safe_extractReferences hReferences finding hReference)

end

end Inspection

end VouchSpec
