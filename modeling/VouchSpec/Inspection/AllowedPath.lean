import VouchSpec.Library.Links
import VouchSpec.Inspection.Snapshot

/-! The paths that requests submit, and what they resolve to below the allowed root. -/

namespace VouchSpec

namespace Inspection

/-- `str.isspace` of one code point. -/
def isSpacePoint : Point → Bool
  | .char c => Lines.isSpace c
  | .surrogate _ => false

/-- A backslash counts as a slash. -/
def withSlashes (value : String) : String :=
  String.ofList (value.toList.map fun c => if c.toNat = 92 then '/' else c)

section
variable (u : Unicode)

/-- The parts of a submitted path that passes the checks of its text. -/
def submittedParts (submittedPath : Text) : Except Raised (List String) := do
  require (submittedPath.all isSpacePoint = false) (pathRejected "path must be a non-empty string")
  require (.char (Char.ofNat 0) ∉ submittedPath) (pathRejected "path contains a null byte")
  let submitted ← Except.ofOption (pathRejected "path is not valid Unicode") (Text.encode? submittedPath)
  require ((Bytes.utf8 submitted.toList).length ≤ 4096) (pathRejected "path exceeds the 4096 byte request limit")
  require (u.normalizeNfc submitted = submitted) (pathRejected "path is not Unicode NFC")
  require (submitted.toList.all (fun c => 32 ≤ c.toNat && c.toNat ≠ 127) = true)
    (pathRejected "path contains a disallowed control character")
  let normalized := withSlashes submitted
  require (normalized.toList.head? ≠ some '/' ∧ normalized.toList[1]? ≠ some ':')
    (pathRejected "path must be relative to the configured root")
  let parts := PosixPath.segments normalized
  require (parts.all (fun part => part ∉ ["", ".", ".."]) = true)
    (pathRejected "path must not contain empty, current-directory, or parent-directory segments")
  require (parts.length ≤ 32 ∧ ':' ∉ (parts.headD "").toList)
    (pathRejected "path has too many segments or resembles a URI/drive path")
  return parts

end

section
variable (tree : LinkedTree)

/-- `resolve_operator_root` of an absolute path. A loop of links is a `RuntimeError`,
which passes the handler. -/
def resolveOperatorRoot (path : List String) : Except Raised (List String) :=
  match tree.lstat path with
  | .error _ => .error (pathRejected "configured root does not exist")
  | .ok (.link _) => .error (pathRejected "configured root may not be a symbolic link or reparse point")
  | .ok _ =>
      match tree.realpath path with
      | .error .loop => .error .fileError
      | .error _ => .error (pathRejected "configured root does not exist")
      | .ok root => do
          require (tree.lstat root = .ok .directory) (pathRejected "configured root must be a directory")
          return root

/-- `lexical_candidate.resolve(strict=True)`, around which there is no handler. -/
def resolveStrict (path : List String) : Except Raised (List String) :=
  match tree.realpath path with
  | .error _ => .error .fileError
  | .ok candidate => .ok candidate

/-- The loop over the parts: each of them is there, and none is a link. -/
def checkComponents : List String → List String → Except Raised Unit
  | _, [] => .ok ()
  | current, part :: rest =>
      match tree.lstat (current ++ [part]) with
      | .error _ => .error (pathRejected "path does not exist beneath the configured root")
      | .ok (.link _) => .error (pathRejected "path traverses a symbolic link or reparse point")
      | .ok _ => checkComponents (current ++ [part]) rest

/-- `resolve_allowed_path`. -/
def resolveAllowedPath (u : Unicode) (allowedRoot : List String) (submittedPath : Text) :
    Except Raised (List String) := do
  let parts ← submittedParts u submittedPath
  let root ← resolveOperatorRoot tree allowedRoot
  let lexicalCandidate := root ++ parts
  let candidate ← resolveStrict tree lexicalCandidate
  require (root <+: candidate) (pathRejected "path escapes the configured root")
  checkComponents tree root parts
  return lexicalCandidate

/-- A `PathRejected`. -/
def IsPathRejected (raised : Raised) : Prop := ∃ message, raised = pathRejected message

/-- A path below a root: something is there, and nothing below the root on the way to it
is a link. -/
structure Beneath (root path : List String) : Prop where
  lexical : ∃ parts, parts ≠ [] ∧ (∀ part ∈ parts, PosixPath.IsName part ∧ part ≠ "..") ∧ path = root ++ parts
  present : ∃ item, tree.lstat path = .ok item
  unlinked : ∀ front, root <+: front → front <+: path → front ≠ root →
    ∃ item, tree.lstat front = .ok item ∧ item.isLink = false

/-- The outcomes that a resolution below a root is meant to have. -/
def Settled (root : List String) : Except Raised (List String) → Prop
  | .ok path => Beneath tree root path
  | .error raised => IsPathRejected raised

end

section
variable {u : Unicode} {tree : LinkedTree}

theorem isPathRejected_pathRejected (message : String) : IsPathRejected (pathRejected message) := ⟨message, rfl⟩

/-- The checks of a text raise nothing but rejections. -/
theorem submittedParts_raisesOnly (submittedPath : Text) :
    (submittedParts u submittedPath).RaisesOnly IsPathRejected := by
  refine .bind (Except.raisesOnly_require (isPathRejected_pathRejected _)) fun _ _ => ?_
  refine .bind (Except.raisesOnly_require (isPathRejected_pathRejected _)) fun _ _ => ?_
  refine .bind (Except.raisesOnly_ofOption (isPathRejected_pathRejected _)) fun submitted _ => ?_
  refine .bind (Except.raisesOnly_require (isPathRejected_pathRejected _)) fun _ _ => ?_
  refine .bind (Except.raisesOnly_require (isPathRejected_pathRejected _)) fun _ _ => ?_
  refine .bind (Except.raisesOnly_require (isPathRejected_pathRejected _)) fun _ _ => ?_
  refine .bind (Except.raisesOnly_require (isPathRejected_pathRejected _)) fun _ _ => ?_
  refine .bind (Except.raisesOnly_require (isPathRejected_pathRejected _)) fun _ _ => ?_
  exact .bind (Except.raisesOnly_require (isPathRejected_pathRejected _)) fun _ _ => Except.raisesOnly_ok _

theorem submittedParts_eq_ok {submittedPath : Text} {parts : List String} (h : submittedParts u submittedPath = .ok parts) :
    parts ≠ [] ∧ ∀ part ∈ parts, PosixPath.IsName part ∧ part ≠ ".." := by
  simp only [submittedParts, Except.bind_eq_ok_iff, require_eq_ok, exists_const, Except.pure_eq_ok_iff,
    List.all_eq_true, decide_eq_true_eq] at h
  obtain ⟨-, -, submitted, -, -, -, -, -, hParts, -, rfl⟩ := h
  constructor
  · simp [PosixPath.segments, List.splitOn_ne_nil]
  · intro part hPart
    have hKept := hParts part hPart
    simp only [List.mem_cons, List.not_mem_nil, or_false, not_or] at hKept
    obtain ⟨characters, hCharacters, rfl⟩ := List.mem_map.mp hPart
    exact ⟨⟨hKept.1, hKept.2.1, by simpa using PosixPath.not_mem_splitOn hCharacters⟩, hKept.2.2⟩

/-- A root that is resolved is a real directory. -/
theorem resolveOperatorRoot_eq_ok {path root : List String} (h : resolveOperatorRoot tree path = .ok root) :
    IsReal tree.lstat root ∧ ".." ∉ root := by
  unfold resolveOperatorRoot at h
  split at h
  · cases h
  · cases h
  · split at h
    · cases h
    · cases h
    · next hRoot =>
        simp only [Except.bind_eq_ok_iff, require_eq_ok, exists_const, Except.pure_eq_ok_iff] at h
        obtain ⟨-, rfl⟩ := h
        obtain ⟨steps, leads⟩ := LinkedTree.realpath_eq_ok.mp hRoot
        exact ⟨leads.real LinkedTree.isReal_nil, leads.descends List.not_mem_nil⟩

theorem checkComponents_raisesOnly (current parts : List String) :
    (checkComponents tree current parts).RaisesOnly IsPathRejected := by
  induction parts generalizing current with
  | nil => exact Except.raisesOnly_ok ()
  | cons part rest ih =>
      rw [checkComponents]
      split
      · exact Except.raisesOnly_error (isPathRejected_pathRejected _)
      · exact Except.raisesOnly_error (isPathRejected_pathRejected _)
      · exact ih _

/-- The parts that pass the loop are there, and no links. -/
theorem checkComponents_eq_ok {current parts : List String} (h : checkComponents tree current parts = .ok ()) :
    ∀ front, front <+: parts → front ≠ [] → ∃ item, tree.lstat (current ++ front) = .ok item ∧ item.isLink = false := by
  induction parts generalizing current with
  | nil =>
      intro front hFront hSome
      exact absurd (List.prefix_nil.mp hFront) hSome
  | cons part rest ih =>
      rw [checkComponents] at h
      split at h
      · cases h
      · cases h
      · next item hNoLink hItem =>
          intro front hFront hSome
          obtain ⟨name, more, rfl⟩ := List.exists_cons_of_ne_nil hSome
          obtain ⟨rfl, hMore⟩ := List.cons_prefix_cons.mp hFront
          by_cases hLast : more = []
          · subst hLast
            refine ⟨item, hItem, ?_⟩
            cases item with
            | link target => exact absurd rfl (hNoLink target)
            | _ => rfl
          · obtain ⟨found, hFound, hPlain⟩ := ih h more hMore hLast
            exact ⟨found, by simpa using hFound, hPlain⟩

/-- What the checks let through is below the root. -/
theorem beneath_of_checks {submittedPath : Text} {root parts : List String}
    (hParts : submittedParts u submittedPath = .ok parts) (hChecked : checkComponents tree root parts = .ok ()) :
    Beneath tree root (root ++ parts) := by
  obtain ⟨hSome, hNames⟩ := submittedParts_eq_ok hParts
  have hEach := checkComponents_eq_ok hChecked
  obtain ⟨item, hItem, -⟩ := hEach parts (List.prefix_refl _) hSome
  refine ⟨⟨parts, hSome, hNames, rfl⟩, ⟨item, hItem⟩, ?_⟩
  intro front hRoot hFront hBelow
  obtain ⟨back, rfl⟩ := hRoot
  refine hEach back ((List.prefix_append_right_inj root).mp hFront) ?_
  intro hNone
  rw [hNone, List.append_nil] at hBelow
  exact hBelow rfl

theorem isPathRejected_fileError : ¬ IsPathRejected .fileError := by
  rintro ⟨message, hRaised⟩
  cases hRaised

/-- A submitted path is settled exactly when its parts lead somewhere, if its text passes
the checks at all. -/
theorem settled_iff {allowedRoot root : List String} (hRoot : resolveOperatorRoot tree allowedRoot = .ok root)
    (submittedPath : Text) :
    Settled tree root (resolveAllowedPath tree u allowedRoot submittedPath) ↔
      ∀ parts, submittedParts u submittedPath = .ok parts → ∃ steps last, tree.Leads steps root parts last := by
  obtain ⟨hReal, hNames⟩ := resolveOperatorRoot_eq_ok hRoot
  cases hParts : submittedParts u submittedPath with
  | error raised =>
      have hRejected := submittedParts_raisesOnly submittedPath raised hParts
      have hRaised : resolveAllowedPath tree u allowedRoot submittedPath = .error raised := by
        rw [resolveAllowedPath, hParts]
        rfl
      rw [hRaised]
      simp [Settled, hRejected]
  | ok parts =>
      have hForm : resolveAllowedPath tree u allowedRoot submittedPath = do
          let candidate ← resolveStrict tree (root ++ parts)
          require (root <+: candidate) (pathRejected "path escapes the configured root")
          checkComponents tree root parts
          return root ++ parts := by
        rw [resolveAllowedPath, hParts, hRoot]
        rfl
      have hLeads : ∀ last, tree.realpath (root ++ parts) = .ok last ↔ ∃ steps, tree.Leads steps root parts last :=
        fun last => LinkedTree.realpath_append hReal hNames
      rw [hForm]
      cases hResolved : tree.realpath (root ++ parts) with
      | error error =>
          -- the exception of the resolution passes through
          have hNowhere : ¬ ∃ steps last, tree.Leads steps root parts last := by
            rintro ⟨steps, last, leads⟩
            have hSome := (hLeads last).mpr ⟨steps, leads⟩
            rw [hResolved] at hSome
            cases hSome
          have hStrict : resolveStrict tree (root ++ parts) = .error .fileError := by
            rw [resolveStrict, hResolved]
          rw [hStrict]
          constructor
          · exact fun hSettled => absurd hSettled isPathRejected_fileError
          · exact fun hSomewhere => absurd (hSomewhere parts rfl) hNowhere
      | ok last =>
          obtain ⟨steps, leads⟩ := (hLeads last).mp hResolved
          have hStrict : resolveStrict tree (root ++ parts) = .ok last := by
            rw [resolveStrict, hResolved]
          have hSettled : Settled tree root (do
              let candidate ← resolveStrict tree (root ++ parts)
              require (root <+: candidate) (pathRejected "path escapes the configured root")
              checkComponents tree root parts
              return root ++ parts) := by
            rw [hStrict]
            cases hChecked : checkComponents tree root parts with
            | error raised =>
                have hRejected := checkComponents_raisesOnly root parts raised hChecked
                show Settled tree root (require (root <+: last) _ >>= fun _ => Except.error raised)
                unfold require
                split
                · exact hRejected
                · exact isPathRejected_pathRejected _
            | ok done =>
                have hBeneath := beneath_of_checks hParts hChecked
                show Settled tree root (require (root <+: last) _ >>= fun _ => Except.ok (root ++ parts))
                unfold require
                split
                · exact hBeneath
                · exact isPathRejected_pathRejected _
          refine ⟨fun _ other hOther => ?_, fun _ => hSettled⟩
          obtain rfl := Except.ok.inj hOther
          exact ⟨steps, last, leads⟩

end

namespace Sample

/-- A root with one directory in it, and no links. -/
def skillsTree : LinkedTree where
  lstat path := if [[], ["srv"], ["srv", "demo"]].contains path = true then .ok .directory else .error .missing
  root := rfl
  links := []
  listed path name target _ hLink := by
    split at hLink
    · cases hLink
    · cases hLink

def asciiOnly : Unicode := { casefold := id, normalizeNfc := id, lower := id }

theorem root_skillsTree : resolveOperatorRoot skillsTree ["srv"] = .ok ["srv"] := by decide +kernel

theorem parts_demo : submittedParts asciiOnly (Text.ofString "demo") = .ok ["demo"] := by decide +kernel

/-- A path that is there is settled. -/
theorem settled_demo : Settled skillsTree ["srv"] (resolveAllowedPath skillsTree asciiOnly ["srv"] (Text.ofString "demo")) := by
  refine (settled_iff root_skillsTree (Text.ofString "demo")).mpr ?_
  intro parts hParts
  obtain rfl := Except.ok.inj (parts_demo.symm.trans hParts)
  have hDirectory : skillsTree.lstat (["srv"] ++ ["demo"]) = .ok .directory := by decide
  exact ⟨1, ["srv", "demo"], .plain (by decide) hDirectory rfl (.done _)⟩

/-- A path of which nothing is there raises what no handler catches. -/
theorem missing_path_escapes : resolveOperatorRoot skillsTree ["srv"] = .ok ["srv"] ∧
    ¬ Settled skillsTree ["srv"] (resolveAllowedPath skillsTree asciiOnly ["srv"] (Text.ofString "missing")) := by
  have hRaised : resolveAllowedPath skillsTree asciiOnly ["srv"] (Text.ofString "missing") = .error .fileError := by
    decide +kernel
  refine ⟨root_skillsTree, ?_⟩
  rw [hRaised]
  exact isPathRejected_fileError

end Sample

end Inspection

end VouchSpec
