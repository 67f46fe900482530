import VouchSpec.Inspection.Capture
import VouchSpec.Inspection.LineNumbers
import VouchSpec.Inspection.ReceiptSchema

/-! The bounds that the extractors keep, whatever the files hold: on findings, on
references, on the scan of the lines and on the declared dependencies. -/

namespace VouchSpec

namespace Inspection

/-- Two letters and three digits. -/
def isRule (start ruleId : String) : Bool :=
  ruleId.toList.take 2 = start.toList && (ruleId.toList.drop 2).length = 3 && (ruleId.toList.drop 2).all Char.isDigit

theorem matching_of_isRule {start ruleId : String} (h : isRule start ruleId = true) :
    (Schema.matching (ReceiptSchema.rulePattern start)).valid (.str ruleId) = true := by
  simp only [isRule, Bool.and_eq_true, decide_eq_true_eq, List.all_eq_true] at h
  have hDigits : ruleId.toList.drop 2 ∈ (ReceiptSchema.digits 3).language :=
    Regex.mem_times_one.mpr ⟨h.1.2.ge, h.1.2.le, h.2⟩
  refine Schema.matching_valid.mpr ⟨ruleId, rfl, ?_⟩
  rw [← List.take_append_drop 2 ruleId.toList, h.1.1]
  exact Regex.anchored_of_mem (Regex.mem_seq_literal hDigits)

/-- The number of a line of a file that is captured. -/
def IsLine (line : Nat) : Prop := 1 ≤ line ∧ line ≤ 10 ^ 7

/-- A structural finding as the schema asks for it. -/
structure Finding.Formed (finding : Finding) : Prop where
  rule : isRule "AS" finding.ruleId = true
  nonempty : finding.message ≠ []
  short : finding.message.length ≤ 500
  line : ∀ line, finding.line = some line → IsLine line

def Formed (findings : List Finding) : Prop := ∀ finding ∈ findings, finding.Formed

theorem formed_nil : Formed [] := by simp [Formed]

theorem formed_append {first second : List Finding} : Formed (first ++ second) ↔ Formed first ∧ Formed second := by
  simp only [Formed, List.mem_append, or_imp, forall_and]

theorem formed_singleton {finding : Finding} : Formed [finding] ↔ finding.Formed := by
  simp [Formed]

theorem formed_findingOf {ruleId : String} {severity : Severity} {message : Text} {line : Option Nat}
    (hRule : isRule "AS" ruleId = true) (hMessage : message ≠ [])
    (hLine : ∀ number, line = some number → IsLine number) : (findingOf ruleId severity message line).Formed where
  rule := hRule
  nonempty := by
    have hCleaned : cleaned message ≠ [] := fun h => hMessage (List.map_eq_nil_iff.mp h)
    simpa [findingOf] using hCleaned
  short := List.length_take_le _ _
  line := hLine

theorem ofString_ne_nil {message : String} (hMessage : message ≠ "") : Text.ofString message ≠ [] := by
  simpa [Text.ofString, ← String.toList_eq_nil_iff] using hMessage

theorem formed_finding {ruleId message : String} {severity : Severity}
    (hRule : isRule "AS" ruleId = true) (hMessage : message ≠ "") :
    Formed [finding ruleId severity message] :=
  formed_singleton.mpr (formed_findingOf hRule (ofString_ne_nil hMessage) (by simp))

theorem formed_findingIf {ruleId message : String} (condition : Bool)
    (hRule : isRule "AS" ruleId = true) (hMessage : message ≠ "") :
    Formed (findingIf condition ruleId message) := by
  unfold findingIf
  split
  · exact formed_finding hRule hMessage
  · exact formed_nil

theorem formed_nameFindings (parentName : String) (value : Value) : Formed (nameFindings parentName value) := by
  unfold nameFindings
  split
  · split
    · exact formed_finding (by decide) (by decide)
    · exact formed_append.mpr ⟨formed_findingIf _ (by decide) (by decide), formed_findingIf _ (by decide) (by decide)⟩
  · exact formed_finding (by decide) (by decide)

theorem formed_descriptionFindings (value : Value) : Formed (descriptionFindings value) := by
  unfold descriptionFindings
  split
  · split
    · exact formed_finding (by decide) (by decide)
    · exact formed_findingIf _ (by decide) (by decide)
  · exact formed_finding (by decide) (by decide)

theorem formed_optionalTextFindings {ruleId message : String} (value : Value)
    (hRule : isRule "AS" ruleId = true) (hMessage : message ≠ "") :
    Formed (optionalTextFindings ruleId message value) := by
  unfold optionalTextFindings
  split
  · exact formed_nil
  · exact formed_findingIf _ hRule hMessage

theorem formed_compatibilityFindings (value : Value) : Formed (compatibilityFindings value) := by
  unfold compatibilityFindings
  split
  · exact formed_nil
  · split
    · exact formed_finding (by decide) (by decide)
    · exact formed_findingIf _ (by decide) (by decide)
  · exact formed_finding (by decide) (by decide)

theorem formed_extraMetadataFindings (value : Value) : Formed (extraMetadataFindings value) := by
  unfold extraMetadataFindings
  split
  · exact formed_nil
  · exact formed_findingIf _ (by decide) (by decide)
  · exact formed_finding (by decide) (by decide)

theorem formed_unknownFieldFinding (field : Text) : (unknownFieldFinding field).Formed := by
  refine formed_findingOf (by decide) ?_ (by simp)
  exact List.append_ne_nil_of_left_ne_nil (ofString_ne_nil (by decide)) _

theorem formed_validateMetadata (metadata : Value) (parentName : String) :
    Formed (validateMetadata metadata parentName) := by
  have hUnknown : Formed ((unknownFields metadata).map unknownFieldFinding) := by
    intro finding hFinding
    obtain ⟨field, -, rfl⟩ := List.mem_map.mp hFinding
    exact formed_unknownFieldFinding field
  simp only [validateMetadata, formed_append]
  exact ⟨⟨⟨⟨⟨⟨⟨formed_nameFindings _ _, formed_descriptionFindings _⟩,
    formed_optionalTextFindings _ (by decide) (by decide)⟩, formed_compatibilityFindings _⟩,
    formed_extraMetadataFindings _⟩, formed_optionalTextFindings _ (by decide) (by decide)⟩,
    formed_findingIf _ (by decide) (by decide)⟩, hUnknown⟩

theorem append_ne_empty {first second : String} (h : first ≠ "") : first ++ second ≠ "" := by
  simp [h]

section
variable {lib : Libraries} {snapshot : Snapshot} {limits : ScanLimits}

theorem formed_frontmatter {text : List Char} {frontmatter : Frontmatter}
    (h : parseFrontmatter lib text = .ok frontmatter) : Formed frontmatter.findings := by
  have hStart : ∀ {first second : String}, first ≠ "" → ∀ {ruleId},
      isRule "AS" ruleId = true → ∀ {severity},
      Formed [finding ruleId severity (first ++ second)] :=
    fun hFirst _ hRule _ => formed_finding hRule (append_ne_empty hFirst)
  unfold parseFrontmatter at h
  split at h
  · rw [← Except.pure_eq_ok_iff.mp h]
    exact formed_finding (by decide) (by decide)
  · simp only at h
    split at h
    · rw [← Except.pure_eq_ok_iff.mp h]
      exact formed_finding (by decide) (by decide)
    · split at h
      · rw [← Except.pure_eq_ok_iff.mp h]
        exact formed_finding (by decide) (by decide)
      · split at h
        · rw [← Except.pure_eq_ok_iff.mp h]
          exact hStart (append_ne_empty (by decide)) (by decide)
        · split at h
          · rw [← Except.pure_eq_ok_iff.mp h]
            exact hStart (by decide) (by decide)
          · split at h
            · cases h
            · obtain ⟨_, -, h⟩ := Except.bind_eq_ok_iff.mp h
              rw [← Except.pure_eq_ok_iff.mp h]
              exact hStart (by decide) (by decide)
            · rw [← Except.pure_eq_ok_iff.mp h]
              exact formed_nil
            · rw [← Except.pure_eq_ok_iff.mp h]
              exact formed_finding (by decide) (by decide)

/-- References after some number of candidates. -/
structure References.Bounded (references : References) (taken : Nat) : Prop where
  findings : Formed references.findings
  lines : ∀ reference ∈ references.locals, IsLine reference.line
  locals : references.locals.length ≤ taken
  external : references.external.length ≤ taken
  short : ∀ target ∈ references.external, target.length ≤ 500

variable {references : References} {candidate : Candidate} {taken : Nat}

theorem References.Bounded.more (bounded : references.Bounded taken) : references.Bounded (taken + 1) :=
  { bounded with
    locals := Nat.le_succ_of_le bounded.locals
    external := Nat.le_succ_of_le bounded.external }

theorem References.Bounded.outside (bounded : references.Bounded taken) (hLine : IsLine candidate.line)
    (path : List Char) {message : String} (hMessage : message ≠ "") :
    (references.outside candidate path message).Bounded (taken + 1) := by
  have hFinding : (findingOf "AS201" .error (Text.ofString message) (some candidate.line)).Formed :=
    formed_findingOf (by decide) (ofString_ne_nil hMessage) (by simpa using hLine)
  refine { bounded.more with
           findings := formed_append.mpr ⟨bounded.findings, formed_singleton.mpr hFinding⟩, lines := ?_, locals := ?_ }
  · simp only [References.outside, List.forall_mem_append, List.forall_mem_singleton]
    exact ⟨bounded.lines, hLine⟩
  · simpa [References.outside] using bounded.locals

theorem References.Bounded.inside (bounded : references.Bounded taken) (hLine : IsLine candidate.line) (relative : String)
    (available : Bool) : (references.inside candidate relative available).Bounded (taken + 1) := by
  have hMissing : (findingOf "AS202" .warning (Text.ofString ("referenced file was not found: " ++ relative))
      (some candidate.line)).Formed :=
    formed_findingOf (by decide) (ofString_ne_nil (append_ne_empty (by decide))) (by simpa using hLine)
  refine { bounded.more with findings := formed_append.mpr ⟨bounded.findings, ?_⟩, lines := ?_, locals := ?_ }
  · split
    · exact formed_singleton.mpr hMissing
    · exact formed_nil
  · simp only [References.inside, List.forall_mem_append, List.forall_mem_singleton]
    exact ⟨bounded.lines, hLine⟩
  · simpa [References.inside] using bounded.locals

theorem References.Bounded.addExternal (bounded : references.Bounded taken) {target : List Char}
    (hTarget : target.length ≤ 500) : (references.addExternal target).Bounded (taken + 1) := by
  unfold References.addExternal
  split
  · exact bounded.more
  · refine { bounded.more with external := ?_, short := ?_ }
    · simpa using bounded.external
    · simp only [List.forall_mem_append, List.forall_mem_singleton]
      exact ⟨bounded.short, hTarget⟩

theorem References.Bounded.step (bounded : references.Bounded taken) (hLine : IsLine candidate.line) {after : References}
    (h : references.step lib snapshot candidate = .ok after) : after.Bounded (taken + 1) := by
  have hSeen : (references.see candidate).Bounded taken := { bounded with }
  unfold References.step at h
  simp only at h
  split at h
  · rw [← Except.pure_eq_ok_iff.mp h]
    exact bounded.more
  · cases hUrl : lib.urlparse candidate.target with
    | none =>
        rw [hUrl] at h
        rw [← Except.pure_eq_ok_iff.mp h]
        exact hSeen.outside hLine _ (by decide)
    | some url =>
        rw [hUrl] at h
        simp only at h
        split at h
        · rw [← Except.pure_eq_ok_iff.mp h]
          refine hSeen.addExternal ?_
          split
          · exact List.length_take_le _ _
          · exact sanitizeExternalTarget_length url
        · split at h
          · rw [← Except.pure_eq_ok_iff.mp h]
            exact hSeen.outside hLine _ (by decide)
          · unfold resolveReference at h
            simp only at h
            split at h
            · rw [← Except.pure_eq_ok_iff.mp h]
              exact hSeen.outside hLine _ (by decide)
            · obtain ⟨resolved, -, h⟩ := Except.bind_eq_ok_iff.mp h
              cases resolved with
              | none =>
                  rw [← Except.pure_eq_ok_iff.mp h]
                  exact hSeen.outside hLine _ (by decide)
              | some relative =>
                  rw [← Except.pure_eq_ok_iff.mp h]
                  exact hSeen.inside hLine _ _

theorem References.Bounded.loop {candidates : List Candidate} (bounded : references.Bounded taken)
    (hLines : ∀ candidate ∈ candidates, IsLine candidate.line) {after : References}
    (h : candidates.foldlM (References.step lib snapshot) references = .ok after) :
    after.Bounded (taken + candidates.length) := by
  induction candidates generalizing references taken with
  | nil =>
      rw [← Except.pure_eq_ok_iff.mp h]
      exact bounded
  | cons candidate rest ih =>
      simp only [List.foldlM_cons, Except.bind_eq_ok_iff] at h
      obtain ⟨next, hStep, hRest⟩ := h
      have hNext := bounded.step (hLines candidate List.mem_cons_self) hStep
      have hAfter := ih hNext (fun other hOther => hLines other (List.mem_cons_of_mem _ hOther)) hRest
      rwa [List.length_cons, Nat.add_comm rest.length, ← Nat.add_assoc]

theorem StartsAt.pos {lines after : List (List Char)} {start : Nat} (starts : StartsAt lines start after) : 1 ≤ start := by
  cases starts <;> omega

/-- The lines of the body are numbered within the file. -/
theorem Splits.within {text : List Char} {frontmatter : Frontmatter} {after : List (List Char)}
    (splits : Splits text frontmatter after) :
    frontmatter.bodyStartLine + (Lines.split frontmatter.body).length ≤ (Lines.split text).length + 2 := by
  have hAfter : frontmatter.bodyStartLine + after.length ≤ (Lines.split text).length + 2 := by
    have starts := splits.starts
    generalize frontmatter.bodyStartLine = start at starts ⊢
    cases starts with
    | unopened => omega
    | unclosed => omega
    | closed first inside closing after hLines =>
        rw [hLines]
        simp only [List.length_append, List.length_cons]
        omega
  have hBody : (Lines.split frontmatter.body).length ≤ after.length := by
    rcases splits.body with ⟨hBody, hAfter⟩ | hJoined
    · rw [hBody, hAfter]
    · have hUnbroken : ∀ line ∈ after, Lines.Unbroken line := fun line hLine =>
        Lines.unbroken_split text line (splits.starts.subset line hLine)
      rw [hJoined, Lines.split_join hUnbroken]
      exact Lines.trimmed_length_le after
  omega

theorem bounded_extractReferences {body : List Char} {bodyStartLine : Nat} (hStart : 1 ≤ bodyStartLine)
    (hEnd : bodyStartLine + (Lines.split body).length ≤ 10 ^ 7)
    (h : extractReferences lib limits body snapshot bodyStartLine = .ok references) :
    references.Bounded limits.maxReferences := by
  unfold extractReferences at h
  rw [collectCandidates_eq (Nat.zero_le _), List.nil_append] at h
  simp only at h
  have hCount := List.length_take_le limits.maxReferences (scanned lib false (numbered bodyStartLine (Lines.split body)))
  have hLines : ∀ candidate ∈ (upTo limits.maxReferences (scanned lib false
      (numbered bodyStartLine (Lines.split body)))).1, IsLine candidate.line := by
    intro candidate hCandidate
    obtain ⟨line, _, hLine, -⟩ := mem_scanned (mem_upTo hCandidate)
    exact ⟨hStart.trans (List.le_snd_of_mem_zipIdx hLine), (List.snd_lt_add_of_mem_zipIdx hLine).le.trans (by omega)⟩
  have hFirst : ∀ reached : Bool, References.Bounded { findings := if reached = true then
      [finding "AS299" .error ("reference analysis exceeded the " ++ shown limits.maxReferences ++ " candidate limit")]
      else [] } 0 := by
    intro reached
    refine ⟨?_, by simp, le_refl 0, le_refl 0, by simp⟩
    split
    · exact formed_finding (by decide) (append_ne_empty (append_ne_empty (by decide)))
    · exact formed_nil
  have bounded := (hFirst _).loop hLines h
  rw [Nat.zero_add] at bounded
  exact { bounded with
          locals := bounded.locals.trans hCount
          external := bounded.external.trans hCount }

theorem formed_readSkill {text : List Char} {metadata : Value} {findings : List Finding} (hText : text.length ≤ 2000000)
    (h : readSkill lib limits snapshot text = .ok (metadata, findings, references)) :
    Formed findings ∧ references.Bounded limits.maxReferences := by
  simp only [readSkill, Except.bind_eq_ok_iff, Except.pure_eq_ok_iff, Prod.mk.injEq] at h
  obtain ⟨frontmatter, hFrontmatter, found, hReferences, rfl, rfl, rfl⟩ := h
  obtain ⟨after, splits⟩ := parseFrontmatter_splits hFrontmatter
  have hLines : (Lines.split text).length ≤ text.length + 1 := Lines.splitFrom_length_le [] text
  have hWithin := splits.within
  have bounded := bounded_extractReferences splits.starts.pos (by omega) hReferences
  refine ⟨?_, bounded⟩
  intro finding hFinding
  refine (show Formed _ from ?_) finding ((List.perm_insertionSort _ _).mem_iff.mp hFinding)
  simp only [formed_append]
  refine ⟨⟨⟨⟨formed_frontmatter hFrontmatter, formed_validateMetadata _ _⟩, ?_⟩, ?_⟩, bounded.findings⟩
  · split
    · exact formed_finding (by decide) (by decide)
    · exact formed_nil
  · split
    · exact formed_finding (by decide) (by decide)
    · exact formed_nil

theorem formed_capFindings {findings : List Finding} (hFindings : Formed findings) :
    Formed (capFindings limits findings) ∧ (capFindings limits findings).length ≤ limits.maxFindings := by
  have hPositive := limits.positive
  unfold capFindings
  split
  · constructor
    · refine formed_append.mpr ⟨fun finding hFinding => hFindings finding (List.mem_of_mem_take hFinding), ?_⟩
      exact formed_finding (by decide) (append_ne_empty (append_ne_empty (by decide)))
    · rw [List.length_append, List.length_take, List.length_singleton]
      omega
  · next hShort => exact ⟨hFindings, Nat.le_of_not_lt hShort⟩

/-- The text of a file is no longer than any file may be. -/
theorem GoodFile.length_text {p : Platform} {file : FileData} (good : GoodFile p limits file) {text : List Char}
    (hDecoded : Bytes.decodeUtf8 file.content = some text) : text.length ≤ 2000000 := by
  have hBytes := Bytes.length_le_of_decodeUtf8 hDecoded
  have hSize := good.bounded
  have hCeiling := limits.ceilings
  rw [good.size] at hSize
  omega

/-- The bounds on what a skill is parsed to. -/
structure ParsedSkill.Bounded (limits : ScanLimits) (parsed : ParsedSkill) : Prop where
  findings : Formed parsed.structuralFindings
  findingCount : parsed.structuralFindings.length ≤ limits.maxFindings
  lines : ∀ reference ∈ parsed.localReferences, IsLine reference.line
  localCount : parsed.localReferences.length ≤ limits.maxReferences
  externalCount : parsed.externalReferences.length ≤ limits.maxReferences
  external : ∀ target ∈ parsed.externalReferences, target.length ≤ 500

theorem bounded_unreadable {ruleId message : String} (hRule : isRule "AS" ruleId = true) (hMessage : message ≠ "") :
    (unreadable ruleId message).Bounded limits :=
  ⟨formed_finding hRule hMessage, limits.positive.2.2.2.2.2.2.2.2.2.2.2.2.2.1, by simp [unreadable], Nat.zero_le _,
    Nat.zero_le _, by simp [unreadable]⟩

theorem bounded_parseSkill {p : Platform} (accepted : snapshot.Accepted p limits) {parsed : ParsedSkill}
    (h : parseSkill lib limits snapshot = .ok parsed) :
    parsed.Bounded limits := by
  unfold parseSkill at h
  split at h
  · obtain rfl := Except.ok.inj h
    exact bounded_unreadable (by decide) (by decide)
  · next skillFile hFile =>
      have good := accepted.files skillFile (List.mem_of_find?_eq_some hFile)
      split at h
      · obtain rfl := Except.ok.inj h
        exact bounded_unreadable (by decide) (by decide)
      · next text hDecoded =>
          have hText := good.length_text hDecoded
          simp only at h
          split at h
          · rw [← Except.pure_eq_ok_iff.mp h]
            exact bounded_unreadable (by decide) (by decide)
          · simp only [Except.bind_eq_ok_iff, Except.pure_eq_ok_iff, Prod.exists] at h
            obtain ⟨metadata, findings, references, hRead, rfl⟩ := h
            obtain ⟨hFormed, bounded⟩ := formed_readSkill hText hRead
            have hCapped := @formed_capFindings limits _ hFormed
            constructor
            · exact hCapped.1
            · exact hCapped.2
            · exact fun reference hReference => bounded.lines reference ((List.perm_insertionSort _ _).mem_iff.mp hReference)
            · rw [List.length_insertionSort]
              exact bounded.locals
            · rw [List.length_insertionSort]
              exact bounded.external
            · exact fun target hTarget => bounded.short target ((List.perm_insertionSort _ _).mem_iff.mp hTarget)

end

end Inspection

end VouchSpec
