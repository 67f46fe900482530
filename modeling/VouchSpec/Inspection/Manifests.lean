import VouchSpec.Library.Loops
import VouchSpec.Inspection.Static

/-! What a manifest declares, apart from what was declared before it, and the error
that ends it. -/

namespace VouchSpec

namespace Inspection

section
variable (lib : Libraries)

/-- The records of a table up to an entry whose text cannot be made. -/
def entryRecords (ecosystem path : String) : List (Value × Value) → List Dependency × Option LoadError
  | [] => ([], none)
  | (package, version) :: rest =>
      match lib.show package, lib.show version with
      | .ok packageText, .ok versionText =>
          (declaration ecosystem (packageText ++ Text.ofString "@" ++ versionText) path ::
            (entryRecords ecosystem path rest).1, (entryRecords ecosystem path rest).2)
      | .error error, _ => ([], some error)
      | _, .error error => ([], some error)

/-- The records of the groups of a package file, up to one of another shape. -/
def groupRecords (path : String) (data : Value) : List String → List Dependency × Option LoadError
  | [] => ([], none)
  | group :: rest =>
      match data.get group with
      | .null =>
          if (fieldNames data).any (fun name => name.text? = some (Text.ofString group)) = true then ([], none)
          else groupRecords path data rest
      | .mapping entries =>
          match entryRecords lib "node" path entries with
          | (records, none) => (records ++ (groupRecords path data rest).1, (groupRecords path data rest).2)
          | (records, some error) => (records, some error)
      | _ => ([], none)

/-- The records of a requirements file. -/
def requirementRecords (path : String) (text : List Char) : List Dependency :=
  (((Lines.split text).map Lines.strip).filter isRequirement).map fun value =>
    declaration "python" (value.map Point.char) path

def projectRecords (path : String) (text : List Char) : List Dependency × Option LoadError :=
  match lib.loadToml text with
  | .error error => ([], some error)
  | .ok data =>
      ((((projectDependencies data).getD []).filterMap Value.text?).map fun value => declaration "python" value path,
        none)

def packageRecords (path : String) (text : List Char) : List Dependency × Option LoadError :=
  match lib.loadJson text with
  | .error error => ([], some error)
  | .ok (.mapping entries) =>
      groupRecords lib path (.mapping entries) ["dependencies", "devDependencies", "optionalDependencies"]
  | .ok _ => ([], none)

def cargoRecords (path : String) (text : List Char) : List Dependency × Option LoadError :=
  match lib.loadToml text with
  | .error error => ([], some error)
  | .ok data =>
      match data.get "dependencies" with
      | .mapping entries => entryRecords lib "rust" path entries
      | _ => ([], none)

/-- What a file declares, and the error that ends it. -/
def fileRecords (item : FileData) : List Dependency × Option LoadError :=
  match Bytes.decodeUtf8 item.content with
  | none => ([], none)
  | some text =>
      let name := baseName item.path
      if "requirements".toList.isPrefixOf name = true ∧ ".txt".toList.isSuffixOf name = true then
        (requirementRecords item.path text, none)
      else if name = "pyproject.toml".toList then projectRecords lib item.path text
      else if name = "package.json".toList then packageRecords lib item.path text
      else if name = "Cargo.toml".toList then cargoRecords lib item.path text
      else ([], none)

end

/-- A failure as a file can have it. -/
structure GoodFailure (path : String) (failure : ManifestFailure) : Prop where
  path : failure.path = path
  manifest : failure.manifest ∈ ["pyproject.toml", "package.json", "Cargo.toml"]
  reason : failure.reason ≠ "" ∧ failure.reason.toList.length ≤ 100

/-- A step that keeps the new ones of these records and notes one failure at most. -/
structure Manifests.Adds (limit : Nat) (path : String) (before after : Manifests) (records : List Dependency) : Prop where
  dependencies : after.dependencies = List.keepDistinct limit before.dependencies records
  failures : ∃ failed, after.failures = before.failures ++ failed ∧ failed.length ≤ 1 ∧
    ∀ failure ∈ failed, GoodFailure path failure

/-- What becomes of a file: what it declares is kept, unless a plain `ValueError` ends it. -/
inductive Manifests.Outcome (limit : Nat) (path : String) (before : Manifests) (records : List Dependency) :
    Option LoadError → Except Raised Manifests → Prop where
  | kept {error : Option LoadError} {after : Manifests} (hError : ∀ message, error ≠ some (.value message))
      (adds : before.Adds limit path after records) : Outcome limit path before records error (.ok after)
  | raised (message : String) :
      Outcome limit path before records (some (.value message)) (.error (.valueError message))

section
variable {lib : Libraries} {limit : Nat} {path : String}

theorem add_dependencies (manifests : Manifests) (record : Dependency) :
    (manifests.add limit record).dependencies = List.keepDistinct limit manifests.dependencies [record] ∧
      (manifests.add limit record).failures = manifests.failures := by
  unfold Manifests.add
  simp only [List.keepDistinct]
  split
  · next hOld => simp [hOld]
  · next hNew =>
      split
      · next hFull => simp [hFull]
      · next hRoom => simp [hNew, hRoom]

/-- Adding the records of a list one by one. -/
theorem adds_foldl (records : List Dependency) (manifests : Manifests) :
    manifests.Adds limit path (records.foldl (Manifests.add limit) manifests) records := by
  constructor
  · have hStep : ∀ (manifests : Manifests) (record : Dependency), (manifests.add limit record).dependencies =
        List.keepDistinct limit manifests.dependencies [record] := fun manifests record =>
      (add_dependencies manifests record).1
    rw [List.foldl_keepDistinct hStep, List.flatMap_singleton']
  · refine ⟨[], ?_, by simp, by simp⟩
    rw [List.append_nil]
    induction records generalizing manifests with
    | nil => rfl
    | cons record rest ih =>
        rw [List.foldl_cons, ih]
        exact (add_dependencies manifests record).2

theorem Manifests.Adds.none (manifests : Manifests) : manifests.Adds limit path manifests [] :=
  ⟨rfl, [], by rw [List.append_nil], by simp, by simp⟩

/-- A failure that is noted after the records. -/
theorem Manifests.Adds.fail {before after : Manifests} {records : List Dependency}
    (hSame : after.failures = before.failures)
    (hKept : after.dependencies = List.keepDistinct limit before.dependencies records) {manifest reason : String}
    (hManifest : manifest ∈ ["pyproject.toml", "package.json", "Cargo.toml"])
    (hReason : reason ≠ "" ∧ reason.toList.length ≤ 100) :
    before.Adds limit path (after.fail path manifest reason) records :=
  ⟨hKept, [⟨path, manifest, reason⟩], by rw [Manifests.fail, hSame], by simp, by
    simpa using ⟨rfl, hManifest, hReason⟩⟩

/-- The entries of a table are kept up to the first error. -/
theorem addPackages_eq (ecosystem : String) (entries : List (Value × Value)) (manifests : Manifests) :
    (manifests.addPackages lib limit ecosystem path entries).1.dependencies =
        List.keepDistinct limit manifests.dependencies (entryRecords lib ecosystem path entries).1 ∧
      (manifests.addPackages lib limit ecosystem path entries).1.failures = manifests.failures ∧
      (manifests.addPackages lib limit ecosystem path entries).2 = (entryRecords lib ecosystem path entries).2 := by
  induction entries generalizing manifests with
  | nil => exact ⟨rfl, rfl, rfl⟩
  | cons entry rest ih =>
      obtain ⟨package, version⟩ := entry
      unfold Manifests.addPackages entryRecords
      cases hPackage : lib.show package with
      | error error => exact ⟨rfl, rfl, rfl⟩
      | ok packageText =>
          cases hVersion : lib.show version with
          | error error => exact ⟨rfl, rfl, rfl⟩
          | ok versionText =>
              simp only
              obtain ⟨hKept, hFailures, hError⟩ := ih (manifests.add limit
                (declaration ecosystem (packageText ++ Text.ofString "@" ++ versionText) path))
              obtain ⟨hOne, hSame⟩ := @add_dependencies limit manifests
                (declaration ecosystem (packageText ++ Text.ofString "@" ++ versionText) path)
              refine ⟨?_, hFailures.trans hSame, hError⟩
              rw [hKept, hOne, ← List.keepDistinct_append, List.singleton_append]

/-- An error that a reader ends in. -/
theorem outcome_caught {before after : Manifests} {records : List Dependency} (hSame : after.failures = before.failures)
    (hKept : after.dependencies = List.keepDistinct limit before.dependencies records) {manifest : String}
    (hManifest : manifest ∈ ["pyproject.toml", "package.json", "Cargo.toml"]) (error : LoadError) :
    Manifests.Outcome limit path before records (some error) (after.caught path manifest error) := by
  have hFailed := @Manifests.Adds.fail limit path _ _ _ hSame hKept _ _ hManifest
    (show "parse-failed" ≠ "" ∧ "parse-failed".toList.length ≤ 100 by decide)
  cases error with
  | value message => exact .raised message
  | decode => exact .kept (by simp) hFailed
  | recursion => exact .kept (by simp) hFailed

/-- Records that were kept before. -/
theorem Manifests.Outcome.after {before middle : Manifests} {records more : List Dependency} {error : Option LoadError}
    {result : Except Raised Manifests} (hSame : middle.failures = before.failures)
    (hKept : middle.dependencies = List.keepDistinct limit before.dependencies records)
    (outcome : middle.Outcome limit path more error result) :
    before.Outcome limit path (records ++ more) error result := by
  cases outcome with
  | raised message => exact .raised message
  | kept hError adds =>
      refine .kept hError ⟨?_, hSame ▸ adds.failures⟩
      rw [adds.dependencies, hKept, List.keepDistinct_append]

def packageGroups : List String := ["dependencies", "devDependencies", "optionalDependencies"]

theorem packageGroups_reason : ∀ group ∈ packageGroups, "unexpected-" ++ group ++ "-shape" ≠ "" ∧
    ("unexpected-" ++ group ++ "-shape").toList.length ≤ 100 := by
  decide

theorem addGroups_outcome (data : Value) {groups : List String} (hGroups : ∀ group ∈ groups, group ∈ packageGroups)
    (manifests : Manifests) : manifests.Outcome limit path (groupRecords lib path data groups).1
      (groupRecords lib path data groups).2 (manifests.addGroups lib limit path data groups) := by
  induction groups generalizing manifests with
  | nil => exact .kept (by simp [groupRecords]) (.none manifests)
  | cons group rest ih =>
      have hRest := ih fun other hOther => hGroups other (List.mem_cons_of_mem _ hOther)
      have hReason := packageGroups_reason group (hGroups group List.mem_cons_self)
      have hFailed : manifests.Adds limit path
          (manifests.fail path "package.json" ("unexpected-" ++ group ++ "-shape")) [] :=
        Manifests.Adds.fail rfl rfl (by decide) hReason
      unfold Manifests.addGroups groupRecords
      cases hData : data.get group with
      | null =>
          simp only
          split
          · exact .kept (by simp) hFailed
          · exact hRest manifests
      | mapping entries =>
          obtain ⟨hKept, hSame, hError⟩ := @addPackages_eq lib limit path "node" entries manifests
          simp only
          generalize manifests.addPackages lib limit "node" path entries = added at hKept hSame hError
          generalize entryRecords lib "node" path entries = read at hKept hError
          obtain ⟨after, error⟩ := added
          obtain ⟨records, found⟩ := read
          obtain rfl : error = found := hError
          cases error with
          | none => exact (hRest after).after hSame hKept
          | some error => exact outcome_caught hSame hKept (by decide) error
      | _ => exact .kept (by simp) hFailed

theorem addProject_outcome (manifests : Manifests) (text : List Char) :
    manifests.Outcome limit path (projectRecords lib path text).1 (projectRecords lib path text).2
      (manifests.addProject lib limit path text) := by
  unfold Manifests.addProject projectRecords
  cases hData : lib.loadToml text with
  | error error => exact outcome_caught rfl rfl (by decide) error
  | ok data =>
      simp only
      cases hValues : projectDependencies data with
      | none => exact .kept (by simp) (Manifests.Adds.fail rfl rfl (by decide) (by decide))
      | some values =>
          refine .kept (by simp) ?_
          have hAll := @adds_foldl limit path
            ((values.filterMap Value.text?).map fun value => declaration "python" value path) manifests
          rwa [List.foldl_map] at hAll

theorem addPackageJson_outcome (manifests : Manifests) (text : List Char) :
    manifests.Outcome limit path (packageRecords lib path text).1 (packageRecords lib path text).2
      (manifests.addPackageJson lib limit path text) := by
  unfold Manifests.addPackageJson packageRecords
  cases hData : lib.loadJson text with
  | error error => exact outcome_caught rfl rfl (by decide) error
  | ok data =>
      cases data with
      | mapping entries => exact addGroups_outcome (.mapping entries) (fun _ => id) manifests
      | _ => exact .kept (by simp) (Manifests.Adds.fail rfl rfl (by decide) (by decide))

theorem addCargo_outcome (manifests : Manifests) (text : List Char) :
    manifests.Outcome limit path (cargoRecords lib path text).1 (cargoRecords lib path text).2
      (manifests.addCargo lib limit path text) := by
  unfold Manifests.addCargo cargoRecords
  cases hData : lib.loadToml text with
  | error error => exact outcome_caught rfl rfl (by decide) error
  | ok data =>
      simp only
      cases hTable : data.get "dependencies" with
      | null => exact .kept (by simp) (.none manifests)
      | mapping entries =>
          obtain ⟨hKept, hSame, hError⟩ := @addPackages_eq lib limit path "rust" entries manifests
          simp only
          generalize manifests.addPackages lib limit "rust" path entries = added at hKept hSame hError
          generalize entryRecords lib "rust" path entries = read at hKept hError
          obtain ⟨after, error⟩ := added
          obtain ⟨records, found⟩ := read
          obtain rfl : error = found := hError
          cases error with
          | none => exact .kept (by simp) ⟨hKept, [], by rw [List.append_nil]; exact hSame, by simp, by simp⟩
          | some error => exact outcome_caught hSame hKept (by decide) error
      | _ => exact .kept (by simp) (Manifests.Adds.fail rfl rfl (by decide) (by decide))

/-- What becomes of a file depends on what it declares only. -/
theorem addFile_outcome (manifests : Manifests) (item : FileData) :
    manifests.Outcome limit item.path (fileRecords lib item).1 (fileRecords lib item).2
      (manifests.addFile lib limit item) := by
  unfold Manifests.addFile fileRecords
  cases hText : Bytes.decodeUtf8 item.content with
  | none => exact .kept (by simp) (.none manifests)
  | some text =>
      simp only
      split
      · refine .kept (by simp) ?_
        have hAll := @adds_foldl limit item.path (requirementRecords item.path text) manifests
        rwa [requirementRecords, List.foldl_map] at hAll
      · split
        · exact addProject_outcome manifests text
        · split
          · exact addPackageJson_outcome manifests text
          · split
            · exact addCargo_outcome manifests text
            · exact .kept (by simp) (.none manifests)

/-- A file whose manifest is not ended by a plain `ValueError`. -/
def Readable (lib : Libraries) (item : FileData) : Prop := ∀ message, (fileRecords lib item).2 ≠ some (.value message)

theorem addFile_ok_iff (manifests : Manifests) (item : FileData) :
    (∃ after, manifests.addFile lib limit item = .ok after) ↔ Readable lib item := by
  have outcome := @addFile_outcome lib limit manifests item
  unfold Readable
  constructor
  · rintro ⟨after, hAfter⟩
    rw [hAfter] at outcome
    generalize (fileRecords lib item).2 = error at outcome ⊢
    cases outcome with
    | kept hError adds => exact hError
  · intro hError
    generalize manifests.addFile lib limit item = result at outcome
    generalize (fileRecords lib item).2 = error at outcome hError
    cases outcome with
    | kept _ adds => exact ⟨_, rfl⟩
    | raised message => exact absurd rfl (hError message)

theorem dependencyRecords_ok_iff {snapshot : Snapshot} :
    (∃ manifests, dependencyRecords lib snapshot limit = .ok manifests) ↔ ∀ item ∈ snapshot.files, Readable lib item :=
  Except.foldlM_ok_iff addFile_ok_iff

theorem addFile_adds {manifests after : Manifests} {item : FileData}
    (h : manifests.addFile lib limit item = .ok after) : manifests.Adds limit item.path after (fileRecords lib item).1 := by
  have outcome := @addFile_outcome lib limit manifests item
  rw [h] at outcome
  generalize (fileRecords lib item).2 = error at outcome
  cases outcome with
  | kept hError adds => exact adds

/-- What the manifests of the files come to. -/
structure Manifests.Of (lib : Libraries) (limit : Nat) (files : List FileData) (before after : Manifests) : Prop where
  dependencies : after.dependencies =
    List.keepDistinct limit before.dependencies (files.flatMap fun item => (fileRecords lib item).1)
  failures : ∃ failed, after.failures = before.failures ++ failed ∧ failed.length ≤ files.length ∧
    ∀ failure ∈ failed, ∃ item ∈ files, GoodFailure item.path failure

theorem manifests_of_loop {files : List FileData} {before after : Manifests}
    (h : files.foldlM (Manifests.addFile lib limit) before = .ok after) : Manifests.Of lib limit files before after := by
  induction files generalizing before with
  | nil =>
      rw [← Except.pure_eq_ok_iff.mp h]
      exact ⟨rfl, [], by rw [List.append_nil], by simp, by simp⟩
  | cons item rest ih =>
      simp only [List.foldlM_cons, Except.bind_eq_ok_iff] at h
      obtain ⟨next, hNext, hRest⟩ := h
      have adds := addFile_adds hNext
      have others := ih hRest
      obtain ⟨failed, hFailed, hOne, hGood⟩ := adds.failures
      obtain ⟨more, hMore, hCount, hOthers⟩ := others.failures
      constructor
      · rw [others.dependencies, adds.dependencies, List.flatMap_cons, List.keepDistinct_append]
      · refine ⟨failed ++ more, by rw [hMore, hFailed, List.append_assoc], ?_, ?_⟩
        · rw [List.length_append, List.length_cons]
          omega
        · intro failure hFailure
          rcases List.mem_append.mp hFailure with hFirst | hOther
          · exact ⟨item, List.mem_cons_self, hGood failure hFirst⟩
          · obtain ⟨other, hOther, good⟩ := hOthers failure hOther
            exact ⟨other, List.mem_cons_of_mem _ hOther, good⟩

end

end Inspection

end VouchSpec
