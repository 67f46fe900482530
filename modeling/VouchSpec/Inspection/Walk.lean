import VouchSpec.Inspection.Capture
import VouchSpec.Inspection.Tree

/-! When a walk over some entries is captured, and what is captured of it: neither
depends on their order. -/

namespace VouchSpec

namespace Inspection

/-- The rules of `_validate_relative_path`. -/
structure PathRules (u : Unicode) (limits : ScanLimits) (relative : String) : Prop where
  nonempty : relative ≠ ""
  bytes : (Bytes.utf8 relative.toList).length ≤ limits.maxPathBytes
  normalized : u.normalizeNfc relative = relative
  characters : ∀ c ∈ relative.toList, c.toNat ≠ 92 ∧ 32 ≤ c.toNat ∧ c.toNat ≠ 127

/-- An entry that is a directory, or a file without another link. -/
def Entry.IsPlain : Entry → Prop
  | .directory _ => True
  | .file links _ => links = 1
  | _ => False

def fileOf (seen : String × String × Entry) : Option (String × Bytes) :=
  match seen.2.2 with
  | .file _ content => some (seen.1, content)
  | _ => none

def excludedOf (seen : String × String × Entry) : Option String :=
  match seen.2.2 with
  | .directory _ => if isExcluded seen.2.1 = true then some seen.1 else none
  | _ => none

theorem filterMap_file (items : List Item) : (items.map Item.seen).filterMap fileOf = items.filterMap Item.file? := by
  rw [List.filterMap_map]
  rfl

theorem filterMap_excluded (items : List Item) :
    (items.map Item.seen).filterMap excludedOf = items.filterMap Item.excluded? := by
  rw [List.filterMap_map]
  rfl

def totalOf (files : List (String × Bytes)) : Nat := (files.map fun file => file.2.length).sum

/-- An entry that the capture does not refuse by itself. -/
structure Allowed (u : Unicode) (limits : ScanLimits) (seen : String × String × Entry) : Prop where
  plain : seen.2.2.IsPlain
  path : PathRules u limits seen.1
  bytes : ∀ file, fileOf seen = some file → file.2.length ≤ limits.maxFileBytes
  skill : ∀ file, fileOf seen = some file → file.1 = "SKILL.md" → file.2.length ≤ limits.maxSkillMdBytes

/-- The counts of a capture are within the limits. -/
structure Capture.Bounded (limits : ScanLimits) (capture : Capture) : Prop where
  entries : capture.entryCount ≤ limits.maxEntries
  directories : capture.directoryCount ≤ limits.maxDirectories
  files : capture.files.length ≤ limits.maxFiles
  total : capture.totalBytes ≤ limits.maxTotalBytes

section
variable (p : Platform) (u : Unicode) (limits : ScanLimits)

/-- A capture after some entries and listed directories. -/
def Capture.after (capture : Capture) (items : List (String × String × Entry)) (listings : List (Nat × Nat)) : Capture where
  entryCount := capture.entryCount + (listings.map Prod.snd).sum
  directoryCount := capture.directoryCount + listings.length
  files := capture.files ++ (items.filterMap fileOf).map fun file => fileData p file.1 file.2
  excluded := capture.excluded ++ (items.filterMap excludedOf).map fun path => path ++ "/"
  totalBytes := capture.totalBytes + totalOf (items.filterMap fileOf)
  normalizedPaths := (items.map fun seen => u.casefold seen.1).reverse ++ capture.normalizedPaths

/-- A walk that is captured. -/
structure Passes (capture : Capture) (items : List (String × String × Entry)) (listings : List (Nat × Nat)) : Prop where
  depths : ∀ depth ∈ listings.map Prod.fst, depth ≤ limits.maxDepth
  allowed : ∀ seen ∈ items, Allowed u limits seen
  fresh : ∀ seen ∈ items, u.casefold seen.1 ∉ capture.normalizedPaths
  distinct : (items.map fun seen => u.casefold seen.1).Nodup
  bounded : (capture.after p u items listings).Bounded limits

end

section
variable {p : Platform} {u : Unicode} {limits : ScanLimits}

theorem validateRelativePath_ok_iff {relative : String} :
    validateRelativePath u limits relative = .ok () ↔ PathRules u limits relative := by
  simp only [validateRelativePath, Except.bind_eq_ok_iff, require_eq_ok, exists_const, List.all_eq_true, decide_eq_true_eq]
  constructor
  · rintro ⟨⟨hNonempty, hBytes⟩, hNormalized, hCharacters⟩
    exact ⟨hNonempty, hBytes, hNormalized, hCharacters⟩
  · intro rules
    exact ⟨⟨rules.nonempty, rules.bytes⟩, rules.normalized, rules.characters⟩

theorem Capture.after_append (capture : Capture) (items others : List (String × String × Entry))
    (listings more : List (Nat × Nat)) :
    capture.after p u (items ++ others) (listings ++ more) = (capture.after p u items listings).after p u others more := by
  simp only [Capture.after, totalOf, List.filterMap_append, List.map_append, List.sum_append, List.length_append,
    List.reverse_append, List.append_assoc, Nat.add_assoc]

theorem Capture.Bounded.before {capture : Capture} {items : List (String × String × Entry)} {listings : List (Nat × Nat)}
    (bounded : (capture.after p u items listings).Bounded limits) : capture.Bounded limits := by
  obtain ⟨hEntries, hDirectories, hFiles, hTotal⟩ := bounded
  simp only [Capture.after, List.length_append] at hEntries hDirectories hFiles hTotal
  constructor <;> omega

/-- A walk is captured when its parts are, one after the other. -/
theorem passes_append {capture : Capture} {items others : List (String × String × Entry)}
    {listings more : List (Nat × Nat)} : Passes p u limits capture (items ++ others) (listings ++ more) ↔
      Passes p u limits capture items listings ∧
        Passes p u limits (capture.after p u items listings) others more := by
  constructor
  · rintro ⟨hDepths, hAllowed, hFresh, hDistinct, hBounded⟩
    simp only [List.map_append, List.mem_append, or_imp, forall_and] at hDepths hAllowed hFresh
    rw [List.map_append, List.nodup_append] at hDistinct
    rw [Capture.after_append] at hBounded
    refine ⟨⟨hDepths.1, hAllowed.1, hFresh.1, hDistinct.1, hBounded.before⟩,
      ⟨hDepths.2, hAllowed.2, ?_, hDistinct.2.1, hBounded⟩⟩
    intro seen hSeen hOld
    rcases List.mem_append.mp hOld with hPassed | hBefore
    · exact hDistinct.2.2 _ (List.mem_reverse.mp hPassed) _ (List.mem_map_of_mem hSeen) rfl
    · exact hFresh.2 seen hSeen hBefore
  · rintro ⟨first, second⟩
    constructor
    · rw [List.map_append]
      exact fun depth hDepth => (List.mem_append.mp hDepth).elim (first.depths depth) (second.depths depth)
    · exact fun seen hSeen => (List.mem_append.mp hSeen).elim (first.allowed seen) (second.allowed seen)
    · intro seen hSeen hOld
      rcases List.mem_append.mp hSeen with hFirst | hSecond
      · exact first.fresh seen hFirst hOld
      · exact second.fresh seen hSecond (List.mem_append_right _ hOld)
    · rw [List.map_append, List.nodup_append]
      refine ⟨first.distinct, second.distinct, ?_⟩
      rintro folded hFolded other hOther rfl
      obtain ⟨seen, hSeen, hSame⟩ := List.mem_map.mp hOther
      refine second.fresh seen hSeen (List.mem_append_left _ (List.mem_reverse.mpr ?_))
      rw [hSame]
      exact hFolded
    · rw [Capture.after_append]
      exact second.bounded

/-- A directory that is listed. -/
theorem listDirectory_eq_ok_iff {capture next : Capture} (hBounded : capture.Bounded limits) {depth entryCount : Nat} :
    capture.listDirectory limits depth entryCount = .ok next ↔
      Passes p u limits capture [] [(depth, entryCount)] ∧ next = capture.after p u [] [(depth, entryCount)] := by
  have hAfter : capture.after p u [] [(depth, entryCount)] = { capture with
      entryCount := capture.entryCount + entryCount, directoryCount := capture.directoryCount + 1 } := by
    simp [Capture.after, totalOf]
  simp only [Capture.listDirectory, Except.bind_eq_ok_iff, require_eq_ok, exists_const, Except.pure_eq_ok_iff]
  rw [← hAfter]
  constructor
  · rintro ⟨hDepth, hDirectories, hEntries, rfl⟩
    refine ⟨⟨by simpa using hDepth, by simp, by simp, by simp, ?_⟩, rfl⟩
    rw [hAfter]
    exact ⟨hEntries, hDirectories, hBounded.files, hBounded.total⟩
  · rintro ⟨passes, rfl⟩
    have bounded := passes.bounded
    rw [hAfter] at bounded
    exact ⟨passes.depths depth (by simp), bounded.directories, bounded.entries, rfl⟩

/-- A capture that has gone past a path. -/
def Capture.pass (u : Unicode) (capture : Capture) (relative : String) : Capture :=
  { capture with normalizedPaths := u.casefold relative :: capture.normalizedPaths }

/-- The part of a step after the checks of the path. -/
def takeEntry (p : Platform) (limits : ScanLimits) (capture : Capture) (relative name : String) :
    Entry → Except Raised Capture
  | .directory _ =>
      if isExcluded name = true then
        return { capture with excluded := capture.excluded ++ [relative ++ "/"] }
      else return capture
  | .file links content => capture.readFile limits p relative links content
  | _ => throw (pathRejected ("special filesystem entries are not allowed: " ++ relative))

theorem visitEntry_passed {capture next : Capture} {relative name : String} {entry : Entry} :
    capture.visit u limits p (.entry relative name entry) = .ok next ↔
      (entry matches .link → False) ∧ PathRules u limits relative ∧ u.casefold relative ∉ capture.normalizedPaths ∧
        takeEntry p limits (capture.pass u relative) relative name entry = .ok next := by
  simp only [Capture.visit, Except.bind_eq_ok_iff, require_eq_ok, exists_const, ← validateRelativePath_ok_iff]
  constructor
  · rintro ⟨hLink, ⟨⟩, hValid, hFresh, h⟩
    exact ⟨hLink, hValid, hFresh, h⟩
  · rintro ⟨hLink, hValid, hFresh, h⟩
    exact ⟨hLink, (), hValid, hFresh, h⟩

/-- An entry that is captured. -/
theorem visitEntry_eq_ok_iff {capture next : Capture} (hBounded : capture.Bounded limits) {relative name : String}
    {entry : Entry} : capture.visit u limits p (.entry relative name entry) = .ok next ↔
      Passes p u limits capture [(relative, name, entry.shallow)] [] ∧
        next = capture.after p u [(relative, name, entry.shallow)] [] := by
  rw [visitEntry_passed]
  have hOne : ∀ entry : Entry, Passes p u limits capture [(relative, name, entry)] [] ↔
      Allowed u limits (relative, name, entry) ∧ u.casefold relative ∉ capture.normalizedPaths ∧
        (capture.after p u [(relative, name, entry)] []).Bounded limits := by
    intro entry
    constructor
    · intro passes
      exact ⟨passes.allowed _ List.mem_cons_self, passes.fresh _ List.mem_cons_self, passes.bounded⟩
    · rintro ⟨allowed, hFresh, bounded⟩
      exact ⟨by simp, by simpa using allowed, by simpa using hFresh, by simp, bounded⟩
  rw [hOne]
  cases entry with
  | link =>
      constructor
      · rintro ⟨hLink, -⟩
        exact (hLink rfl).elim
      · rintro ⟨⟨allowed, -⟩, -⟩
        exact allowed.plain.elim
  | special =>
      constructor
      · rintro ⟨-, -, -, h⟩
        cases h
      · rintro ⟨⟨allowed, -⟩, -⟩
        exact allowed.plain.elim
  | directory entries =>
      have hAfter : capture.after p u [(relative, name, (Entry.directory entries).shallow)] [] =
          { capture.pass u relative with
            excluded := capture.excluded ++ if isExcluded name = true then [relative ++ "/"] else [] } := by
        unfold Capture.after Capture.pass
        by_cases hName : isExcluded name = true
        · simp [fileOf, excludedOf, Entry.shallow, totalOf, hName, List.filterMap_cons]
        · simp [fileOf, excludedOf, Entry.shallow, totalOf, hName, List.filterMap_cons]
      have hTake : takeEntry p limits (capture.pass u relative) relative name (.directory entries) = .ok next ↔
          next = { capture.pass u relative with
            excluded := capture.excluded ++ if isExcluded name = true then [relative ++ "/"] else [] } := by
        unfold takeEntry Capture.pass
        by_cases hName : isExcluded name = true
        · simp [hName, pure, Except.pure, eq_comm]
        · simp [hName, pure, Except.pure, eq_comm]
      rw [hTake, hAfter]
      constructor
      · rintro ⟨-, rules, hFresh, rfl⟩
        refine ⟨⟨⟨trivial, rules, ?_, ?_⟩, hFresh, hBounded.entries, hBounded.directories, hBounded.files,
          hBounded.total⟩, rfl⟩ <;> rintro file ⟨⟩
      · rintro ⟨⟨allowed, hFresh, -⟩, rfl⟩
        exact ⟨by simp, allowed.path, hFresh, rfl⟩
  | file links content =>
      have hAfter : capture.after p u [(relative, name, (Entry.file links content).shallow)] [] =
          { capture.pass u relative with
            totalBytes := capture.totalBytes + content.length
            files := capture.files ++ [fileData p relative content] } := by
        simp [Capture.after, Capture.pass, fileOf, excludedOf, Entry.shallow, totalOf, List.filterMap_cons]
      have hTake : takeEntry p limits (capture.pass u relative) relative name (.file links content) = .ok next ↔
          links = 1 ∧ capture.files.length < limits.maxFiles ∧ content.length ≤ limits.maxFileBytes ∧
            (relative = "SKILL.md" → content.length ≤ limits.maxSkillMdBytes) ∧
            capture.totalBytes + content.length ≤ limits.maxTotalBytes ∧ next = { capture.pass u relative with
              totalBytes := capture.totalBytes + content.length
              files := capture.files ++ [fileData p relative content] } := by
        simp only [takeEntry, Capture.readFile, Except.bind_eq_ok_iff, require_eq_ok, exists_const,
          Except.pure_eq_ok_iff, @eq_comm _ next]
        rfl
      rw [hTake, hAfter]
      constructor
      · rintro ⟨-, rules, hFresh, hLinks, hCount, hBytes, hSkill, hTotal, rfl⟩
        refine ⟨⟨⟨hLinks, rules, ?_, ?_⟩, hFresh, hBounded.entries, hBounded.directories, ?_, hTotal⟩, rfl⟩
        · rintro file ⟨⟩
          exact hBytes
        · rintro file ⟨⟩
          exact hSkill
        · rw [List.length_append, List.length_singleton]
          exact hCount
      · rintro ⟨⟨allowed, hFresh, bounded⟩, rfl⟩
        have hCount := bounded.files
        rw [List.length_append, List.length_singleton] at hCount
        exact ⟨by simp, allowed.path, hFresh, allowed.plain, hCount, allowed.bytes _ rfl, allowed.skill _ rfl,
          bounded.total, rfl⟩

theorem visit_eq_ok_iff {capture next : Capture} (hBounded : capture.Bounded limits) {visit : Visit} :
    capture.visit u limits p visit = .ok next ↔
      Passes p u limits capture (itemsOf [visit]) (listingsOf [visit]) ∧
        next = capture.after p u (itemsOf [visit]) (listingsOf [visit]) := by
  cases visit with
  | directory depth entryCount => exact listDirectory_eq_ok_iff hBounded
  | entry relative name entry => exact visitEntry_eq_ok_iff hBounded

/-- A walk is captured exactly when it passes, and leaves what it has gone over. -/
theorem walk_eq_ok_iff {visits : List Visit} {capture last : Capture} (hBounded : capture.Bounded limits) :
    visits.foldlM (Capture.visit u limits p) capture = .ok last ↔
      Passes p u limits capture (itemsOf visits) (listingsOf visits) ∧
        last = capture.after p u (itemsOf visits) (listingsOf visits) := by
  induction visits generalizing capture with
  | nil =>
      have hSame : capture.after p u [] [] = capture := by simp [Capture.after, totalOf]
      have hPasses : Passes p u limits capture [] [] := ⟨by simp, by simp, by simp, by simp, hSame.symm ▸ hBounded⟩
      show pure capture = Except.ok last ↔ Passes p u limits capture [] [] ∧ last = capture.after p u [] []
      rw [hSame, Except.pure_eq_ok_iff]
      exact ⟨fun h => ⟨hPasses, h.symm⟩, fun h => h.2.symm⟩
  | cons visit rest ih =>
      have hItems : itemsOf (visit :: rest) = itemsOf [visit] ++ itemsOf rest := itemsOf_append [visit] rest
      have hListings : listingsOf (visit :: rest) = listingsOf [visit] ++ listingsOf rest := listingsOf_append [visit] rest
      rw [hItems, hListings, passes_append, Capture.after_append, List.foldlM_cons, Except.bind_eq_ok_iff]
      constructor
      · rintro ⟨next, hNext, hRest⟩
        obtain ⟨passes, rfl⟩ := (visit_eq_ok_iff hBounded).mp hNext
        obtain ⟨others, rfl⟩ := (ih passes.bounded).mp hRest
        exact ⟨⟨passes, others⟩, rfl⟩
      · rintro ⟨⟨passes, others⟩, rfl⟩
        exact ⟨_, (visit_eq_ok_iff hBounded).mpr ⟨passes, rfl⟩, (ih passes.bounded).mpr ⟨others, rfl⟩⟩

end

end Inspection

end VouchSpec
