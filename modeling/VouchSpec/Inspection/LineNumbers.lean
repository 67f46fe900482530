import VouchSpec.Inspection.References
import VouchSpec.Inspection.Sample
import VouchSpec.Library.Rejoin

/-! The lines that references are recorded with: those of the file, though the body is
split off, joined and split again before it is scanned. -/

namespace VouchSpec

namespace Inspection

/-- The lines of a file with their numbers, from a number on. -/
def numbered (start : Nat) (lines : List (List Char)) : List (List Char × Nat) := lines.zipIdx start

/-- The candidates of numbered lines, each of which is scanned once. -/
def scanned (lib : Libraries) : Bool → List (List Char × Nat) → List Candidate
  | _, [] => []
  | inFence, (line, number) :: rest =>
      let stripped := line.dropWhile Lines.isSpace
      if "```".toList.isPrefixOf stripped = true ∨ "~~~".toList.isPrefixOf stripped = true then
        scanned lib (!inFence) rest
      else lineCandidates lib (inFence || lib.search examplePattern line) line number ++ scanned lib inFence rest

/-- Everything up to a limit, and whether there is more. -/
def upTo {Item : Type} (limit : Nat) (items : List Item) : List Item × Bool := (items.take limit, limit < items.length)

theorem takeCandidates_eq {limit : Nat} {taken more : List Candidate} (hTaken : taken.length ≤ limit) :
    takeCandidates limit taken more = upTo limit (taken ++ more) := by
  induction more generalizing taken with
  | nil => simp [takeCandidates, upTo, List.take_of_length_le hTaken, Nat.not_lt.mpr hTaken]
  | cons candidate rest ih =>
      rw [takeCandidates]
      by_cases hFull : limit ≤ taken.length
      · have hLength : taken.length = limit := Nat.le_antisymm hTaken hFull
        rw [if_pos hFull, upTo, List.take_append_of_le_length (by omega), List.take_of_length_le hTaken]
        simp [hLength]
      · rw [if_neg hFull, ih (by simp; omega), List.append_assoc]
        rfl

theorem collectCandidates_eq {lib : Libraries} {limit start : Nat} {taken : List Candidate} {inFence : Bool}
    {lines : List (List Char)} (hTaken : taken.length ≤ limit) :
    collectCandidates lib limit taken inFence start lines =
      upTo limit (taken ++ scanned lib inFence (numbered start lines)) := by
  induction lines generalizing taken inFence start with
  | nil => simp [collectCandidates, scanned, numbered, upTo, List.take_of_length_le hTaken, Nat.not_lt.mpr hTaken]
  | cons line rest ih =>
      rw [collectCandidates, numbered, List.zipIdx_cons, scanned]
      simp only
      split
      · exact ih hTaken
      · rw [takeCandidates_eq hTaken, upTo]
        by_cases hMore : limit < (taken ++ lineCandidates lib (inFence || lib.search examplePattern line) line start).length
        · rw [decide_eq_true hMore]
          simp only
          have hLonger : limit < (taken ++ lineCandidates lib (inFence || lib.search examplePattern line) line start ++
              scanned lib inFence (rest.zipIdx (start + 1))).length := by
            rw [List.length_append]
            omega
          rw [upTo, ← List.append_assoc, List.take_append_of_le_length hMore.le, decide_eq_true hLonger]
        · rw [decide_eq_false hMore]
          simp only
          rw [ih (by rw [List.length_take]; omega), List.take_of_length_le (by omega), List.append_assoc]
          rfl

/-- Where the body of a file starts: on its first line when no frontmatter is closed, and
otherwise after the line that closes it. -/
inductive StartsAt (lines : List (List Char)) : Nat → List (List Char) → Prop where
  | unopened (hFirst : ∀ first ∈ lines.head?, isFence first = false) : StartsAt lines 1 lines
  | unclosed (first : List Char) (rest : List (List Char)) (hLines : lines = first :: rest)
      (hRest : ∀ line ∈ rest, isFence line = false) : StartsAt lines 1 lines
  | closed (first : List Char) (inside : List (List Char)) (closing : List Char) (after : List (List Char))
      (hLines : lines = first :: inside ++ closing :: after) (hFirst : isFence first = true)
      (hInside : ∀ line ∈ inside, isFence line = false) (hClosing : isFence closing = true) :
      StartsAt lines (inside.length + 3) after

/-- The body, with the line it starts on. -/
structure Splits (text : List Char) (frontmatter : Frontmatter) (after : List (List Char)) : Prop where
  starts : StartsAt (Lines.split text) frontmatter.bodyStartLine after
  body : frontmatter.body = text ∧ after = Lines.split text ∨ frontmatter.body = Lines.join after

theorem not_fence_of_mem {lines : List (List Char)} {line : List Char}
    (hLine : line ∈ lines.takeWhile fun line => !isFence line) : isFence line = false := by
  simpa using List.all_eq_true.mp List.all_takeWhile line hLine

theorem fences_none_of_length {lines : List (List Char)}
    (hLength : (lines.takeWhile fun line => !isFence line).length = lines.length) : ∀ line ∈ lines, isFence line = false := by
  have hAll := (List.takeWhile_prefix fun line => !isFence line).eq_of_length hLength
  intro line hLine
  rw [← hAll] at hLine
  exact not_fence_of_mem hLine

/-- The line that closes the frontmatter, with the lines before and after it. -/
theorem fence_of_length {lines : List (List Char)}
    (hLength : ¬(lines.takeWhile fun line => !isFence line).length = lines.length) :
    ∃ closing, lines = (lines.takeWhile fun line => !isFence line) ++
        closing :: lines.drop ((lines.takeWhile fun line => !isFence line).length + 1) ∧ isFence closing = true := by
  cases hRest : lines.dropWhile fun line => !isFence line with
  | nil =>
      have hAll := @List.takeWhile_append_dropWhile _ (fun line => !isFence line) lines
      rw [hRest, List.append_nil] at hAll
      exact absurd (congrArg List.length hAll) hLength
  | cons closing after =>
      have hWhole : (lines.takeWhile fun line => !isFence line) ++ closing :: after = lines := by
        rw [← hRest, List.takeWhile_append_dropWhile]
      have hAfter : lines.drop ((lines.takeWhile fun line => !isFence line).length + 1) = after := by
        have hDrop : ∀ inside : List (List Char), (inside ++ closing :: after).drop (inside.length + 1) = after := by
          intro inside
          rw [← List.drop_drop, List.drop_left]
          rfl
        have hSame := hDrop (lines.takeWhile fun line => !isFence line)
        rwa [hWhole] at hSame
      refine ⟨closing, by rw [hAfter, hWhole], ?_⟩
      have hHead := List.head?_dropWhile_not (fun line => !isFence line) lines
      simpa [hRest] using hHead

theorem parseFrontmatter_splits {lib : Libraries} {text : List Char} {frontmatter : Frontmatter}
    (hParsed : parseFrontmatter lib text = .ok frontmatter) : ∃ after, Splits text frontmatter after := by
  unfold parseFrontmatter at hParsed
  split at hParsed
  · next hLines =>
      obtain rfl := Except.pure_eq_ok_iff.mp hParsed
      refine ⟨_, .unopened ?_, Or.inl ⟨rfl, rfl⟩⟩
      simp [hLines]
  · next first lines hLines =>
      simp only at hParsed
      split at hParsed
      · next hFirst =>
          obtain rfl := Except.pure_eq_ok_iff.mp hParsed
          exact ⟨_, .unopened (by simp [hLines, hFirst]), Or.inl ⟨rfl, rfl⟩⟩
      · next hFirst =>
          split at hParsed
          · next hUnclosed =>
              obtain rfl := Except.pure_eq_ok_iff.mp hParsed
              exact ⟨_, .unclosed first lines hLines (fences_none_of_length hUnclosed), Or.inl ⟨rfl, rfl⟩⟩
          · next hClosed =>
              obtain ⟨closing, hLater, hClosing⟩ := fence_of_length hClosed
              have hInside := fun line => @not_fence_of_mem lines line
              -- What is inside and what comes after are all that matters from here on.
              generalize lines.takeWhile (fun line => !isFence line) = inside at *
              generalize lines.drop (inside.length + 1) = after at *
              have hStarts : StartsAt (Lines.split text) (inside.length + 3) after :=
                .closed first inside closing after (by rw [hLines, hLater]; rfl) (by simpa using hFirst) hInside hClosing
              have hSplit : ∀ metadata findings, Splits text
                  (Frontmatter.mk metadata (Lines.join after) findings (inside.length + 3)) after :=
                fun _ _ => ⟨hStarts, Or.inr rfl⟩
              refine ⟨after, ?_⟩
              split at hParsed
              · exact Except.pure_eq_ok_iff.mp hParsed ▸ hSplit _ _
              · split at hParsed
                · exact Except.pure_eq_ok_iff.mp hParsed ▸ hSplit _ _
                · split at hParsed
                  · cases hParsed
                  · obtain ⟨_, -, hParsed⟩ := Except.bind_eq_ok_iff.mp hParsed
                    exact Except.pure_eq_ok_iff.mp hParsed ▸ hSplit _ _
                  · exact Except.pure_eq_ok_iff.mp hParsed ▸ hSplit _ _
                  · exact Except.pure_eq_ok_iff.mp hParsed ▸ hSplit _ _

section
variable {lib : Libraries} {limits : ScanLimits} {snapshot : Snapshot} {text : List Char} {frontmatter : Frontmatter}
  {inFence : Bool} {start : Nat} {lines : List (List Char)}

/-- The patterns of links find nothing where there is nothing. -/
def FindsNothing (lib : Libraries) : Prop :=
  lib.finditer markdownLinkPattern [] = [] ∧ lib.finditer resourcePathPattern [] = []

theorem lineCandidates_nil (hNothing : FindsNothing lib) (exampleContext : Bool) (number : Nat) :
    lineCandidates lib exampleContext [] number = [] := by
  rw [lineCandidates, hNothing.1, hNothing.2]
  rfl

/-- An empty last line has no candidates. -/
theorem scanned_concat_nil (hNothing : FindsNothing lib) :
    scanned lib inFence (numbered start (lines ++ [[]])) = scanned lib inFence (numbered start lines) := by
  induction lines generalizing inFence start with
  | nil =>
      have hFence : ¬("```".toList.isPrefixOf ([] : List Char) = true ∨ "~~~".toList.isPrefixOf ([] : List Char) = true) := by
        simp
      rw [List.nil_append, numbered, numbered, List.zipIdx_cons, List.zipIdx_nil, scanned, scanned, List.dropWhile_nil,
        if_neg hFence, lineCandidates_nil hNothing]
      rfl
  | cons line rest ih =>
      simp only [List.cons_append, numbered, List.zipIdx_cons, scanned] at ih ⊢
      split
      · exact ih
      · rw [ih]

/-- A candidate is a match on a line of the scan, under the number of that line. -/
theorem mem_scanned {numberedLines : List (List Char × Nat)} {candidate : Candidate}
    (hCandidate : candidate ∈ scanned lib inFence numberedLines) :
    ∃ line exampleContext, (line, candidate.line) ∈ numberedLines ∧
      candidate ∈ lineCandidates lib exampleContext line candidate.line := by
  induction numberedLines generalizing inFence with
  | nil => cases hCandidate
  | cons entry rest ih =>
      obtain ⟨line, number⟩ := entry
      simp only [scanned] at hCandidate
      split at hCandidate
      · obtain ⟨found, context, hFound, hLine⟩ := ih hCandidate
        exact ⟨found, context, List.mem_cons_of_mem _ hFound, hLine⟩
      · rcases List.mem_append.mp hCandidate with hHere | hLater
        · have hNumber : candidate.line = number := by
            rcases List.mem_append.mp hHere with hLink | hPath
            · obtain ⟨_, -, rfl⟩ := List.mem_map.mp hLink
              rfl
            · obtain ⟨_, -, rfl⟩ := List.mem_map.mp hPath
              rfl
          subst hNumber
          exact ⟨line, _, List.mem_cons_self, hHere⟩
        · obtain ⟨found, context, hFound, hLine⟩ := ih hLater
          exact ⟨found, context, List.mem_cons_of_mem _ hFound, hLine⟩

/-- The lines of the body are the lines of the file under these numbers. -/
theorem StartsAt.getElem? {after : List (List Char)} {line : List Char} {number : Nat}
    (starts : StartsAt lines start after) (hLine : (line, number) ∈ numbered start after) :
    1 ≤ number ∧ lines[number - 1]? = some line := by
  have hDrop : 1 ≤ start ∧ lines.drop (start - 1) = after := by
    cases starts with
    | unopened => exact ⟨Nat.le_refl 1, List.drop_zero⟩
    | unclosed => exact ⟨Nat.le_refl 1, List.drop_zero⟩
    | closed first inside closing after hLines =>
        refine ⟨by omega, ?_⟩
        rw [hLines, List.cons_append, show inside.length + 3 - 1 = (inside.length + 1) + 1 by omega, List.drop_succ_cons,
          ← List.drop_drop, List.drop_left]
        rfl
  obtain ⟨hStart, hLine⟩ := List.mk_mem_zipIdx_iff_le_and_getElem?_sub.mp hLine
  rw [← hDrop.2, List.getElem?_drop] at hLine
  refine ⟨by omega, ?_⟩
  rwa [show start - 1 + (number - start) = number - 1 by omega] at hLine

theorem StartsAt.subset {after : List (List Char)} (starts : StartsAt lines start after) : ∀ line ∈ after, line ∈ lines := by
  intro line hLine
  cases starts with
  | unopened => exact hLine
  | unclosed => exact hLine
  | closed first inside closing after hLines =>
      rw [hLines]
      exact List.mem_append_right _ (List.mem_cons_of_mem _ hLine)

theorem mem_upTo {Item : Type} {limit : Nat} {items : List Item} {item : Item} (hItem : item ∈ (upTo limit items).1) :
    item ∈ items :=
  List.mem_of_mem_take hItem

/-- What the scan of the body comes to, as a scan of the lines of the file. -/
theorem collectCandidates_body (hNothing : FindsNothing lib) {after : List (List Char)}
    (splits : Splits text frontmatter after) (limit : Nat) :
    collectCandidates lib limit [] false frontmatter.bodyStartLine (Lines.split frontmatter.body) =
      upTo limit (scanned lib false (numbered frontmatter.bodyStartLine after)) := by
  rw [collectCandidates_eq (Nat.zero_le limit), List.nil_append]
  rcases splits.body with ⟨hBody, hAfter⟩ | hJoined
  · rw [hBody, hAfter]
  · have hUnbroken : ∀ line ∈ after, Lines.Unbroken line := fun line hLine =>
      Lines.unbroken_split text line (splits.starts.subset line hLine)
    rw [hJoined, Lines.split_join hUnbroken]
    rcases Lines.trimmed_or after with hSame | hLost
    · rw [hSame]
    · conv_rhs => rw [← hLost]
      rw [scanned_concat_nil hNothing]

/-- The locals come from candidates, with their lines and kinds. -/
theorem step_locals {references after : References} {candidate : Candidate}
    (hStep : references.step lib snapshot candidate = .ok after) :
    ∀ reference ∈ after.locals, reference ∈ references.locals ∨
      reference.line = candidate.line ∧ reference.kind = candidate.kind := by
  intro reference hReference
  cases step_referred hStep with
  | known => exact Or.inl hReference
  | outside path message hPath =>
      rcases List.mem_append.mp hReference with hOld | hNew
      · exact Or.inl hOld
      · rw [List.mem_singleton.mp hNew]
        exact Or.inr ⟨rfl, rfl⟩
  | external target hTarget =>
      left
      unfold References.addExternal at hReference
      split at hReference <;> exact hReference
  | inside relative hLookedUp hResolved =>
      rcases List.mem_append.mp hReference with hOld | hNew
      · exact Or.inl hOld
      · rw [List.mem_singleton.mp hNew]
        exact Or.inr ⟨rfl, rfl⟩

theorem loop_locals {candidates : List Candidate} {references after : References}
    (hLoop : candidates.foldlM (References.step lib snapshot) references = .ok after) :
    ∀ reference ∈ after.locals, reference ∈ references.locals ∨
      ∃ candidate ∈ candidates, reference.line = candidate.line ∧ reference.kind = candidate.kind := by
  induction candidates generalizing references with
  | nil =>
      obtain rfl := Except.pure_eq_ok_iff.mp hLoop
      exact fun _ => Or.inl
  | cons candidate rest ih =>
      simp only [List.foldlM_cons, Except.bind_eq_ok_iff] at hLoop
      obtain ⟨next, hStep, hRest⟩ := hLoop
      intro reference hReference
      rcases ih hRest reference hReference with hNext | ⟨other, hOther, hSame⟩
      · rcases step_locals hStep reference hNext with hOld | hHere
        · exact Or.inl hOld
        · exact Or.inr ⟨candidate, List.mem_cons_self, hHere⟩
      · exact Or.inr ⟨other, List.mem_cons_of_mem _ hOther, hSame⟩

end

/-- The candidates of the body of a file, and whether there were too many. -/
def bodyCandidates (lib : Libraries) (limits : ScanLimits) (frontmatter : Frontmatter) : List Candidate × Bool :=
  collectCandidates lib limits.maxReferences [] false frontmatter.bodyStartLine (Lines.split frontmatter.body)

/-- A match of one of the two patterns on a line. -/
structure FoundIn (lib : Libraries) (line : List Char) (candidate : Candidate) : Prop where
  found : ∃ found, candidate.target = normalizeLinkTarget lib found.group ∧
    (found ∈ lib.finditer markdownLinkPattern line ∧ candidate.kind ≠ .resourceCandidate ∨
      found ∈ lib.finditer resourcePathPattern line ∧ candidate.kind = .resourceCandidate)

theorem matches_of_mem {lib : Libraries} {line : List Char} {exampleContext : Bool} {number : Nat} {candidate : Candidate}
    (hCandidate : candidate ∈ lineCandidates lib exampleContext line number) : FoundIn lib line candidate := by
  rcases List.mem_append.mp hCandidate with hLink | hPath
  · obtain ⟨found, hFound, rfl⟩ := List.mem_map.mp hLink
    refine ⟨found, rfl, Or.inl ⟨hFound, ?_⟩⟩
    cases exampleContext <;> simp
  · obtain ⟨found, hFound, rfl⟩ := List.mem_map.mp hPath
    exact ⟨found, rfl, Or.inr ⟨hFound, rfl⟩⟩

/-- The lines that references are recorded with are those of the file. -/
structure LinesFaithful (lib : Libraries) (limits : ScanLimits) (text : List Char) (frontmatter : Frontmatter) : Prop where
  /-- Every line after the frontmatter is scanned once, under its number in the file, as
  long as there is room. -/
  scans : ∃ after, StartsAt (Lines.split text) frontmatter.bodyStartLine after ∧ bodyCandidates lib limits frontmatter =
    upTo limits.maxReferences (scanned lib false (numbered frontmatter.bodyStartLine after))
  /-- A candidate is a match on the line of the file that it is recorded with. -/
  located : ∀ candidate ∈ (bodyCandidates lib limits frontmatter).1, 1 ≤ candidate.line ∧
    ∃ line, (Lines.split text)[candidate.line - 1]? = some line ∧ FoundIn lib line candidate
  recorded : ∀ snapshot references,
    extractReferences lib limits frontmatter.body snapshot frontmatter.bodyStartLine = .ok references →
    ∀ reference ∈ references.locals, ∃ candidate ∈ (bodyCandidates lib limits frontmatter).1,
      reference.line = candidate.line ∧ reference.kind = candidate.kind

namespace Sample

def linkLine : List Char := "[notes](notes.md)".toList

/-- The libraries on texts in which one line is a link. -/
def linkedLibraries : Libraries :=
  { libraries with finditer := fun pattern line =>
      if pattern = markdownLinkPattern ∧ line = linkLine then [⟨0, linkLine, "notes.md".toList⟩] else [] }

def linkedText : String := "---\nname: demo\n---\n\n[notes](notes.md)\n\n"

def linkedFrontmatter : Frontmatter :=
  { metadata, body := Char.ofNat 10 :: (linkLine ++ [Char.ofNat 10]), findings := [], bodyStartLine := 4 }

theorem split_linkedText : Lines.split linkedText.toList =
    ["---".toList, "name: demo".toList, "---".toList, [], linkLine, []] := by decide +kernel

theorem frontmatter_linked : parseFrontmatter linkedLibraries linkedText.toList = .ok linkedFrontmatter := by
  unfold parseFrontmatter
  rw [split_linkedText]
  rfl

end Sample

theorem findsNothing_linked : FindsNothing Sample.linkedLibraries := by
  have hSome : ¬([] : List Char) = Sample.linkLine := by decide +kernel
  have hNone : ∀ pattern, Sample.linkedLibraries.finditer pattern [] = [] := by
    intro pattern
    simp only [Sample.linkedLibraries, hSome, and_false, if_false]
  exact ⟨hNone _, hNone _⟩

end Inspection

end VouchSpec
