import VouchSpec.Lifecycle.Sequence

/-! What the file of the store holds: the mark of every root, which a written
file gives back, and the effect of one record on the marks. -/

namespace VouchSpec

namespace Lifecycle

open Signing

/-- A mark that the file may hold. -/
structure Sound (mark : Mark) : Prop where
  positive : 1 ≤ mark.sequence
  digest : ∀ digest, mark.digest = some digest → digest.toList.length = 64

section
variable {roots : Roots} {keyid other : String} {mark : Mark}

theorem mark?_cons (entry : String × Mark) (rest : Roots) (keyid : String) :
    mark? (entry :: rest) keyid = if entry.1 = keyid then some entry.2 else mark? rest keyid := by
  by_cases hSame : entry.1 = keyid <;> simp [mark?, hSame]

theorem mark?_setMark_self : mark? (setMark keyid mark roots) keyid = some mark := by
  induction roots with
  | nil => simp [setMark, mark?]
  | cons entry rest ih =>
      by_cases hSame : entry.1 = keyid
      · rw [setMark, if_pos hSame, mark?_cons, if_pos rfl]
      · rw [setMark, if_neg hSame, mark?_cons, if_neg hSame, ih]

theorem mark?_setMark_of_ne (hOther : other ≠ keyid) :
    mark? (setMark keyid mark roots) other = mark? roots other := by
  induction roots with
  | nil => simp [setMark, mark?, hOther.symm]
  | cons entry rest ih =>
      by_cases hSame : entry.1 = keyid
      · rw [setMark, if_pos hSame, mark?_cons, mark?_cons, if_neg hOther.symm, if_neg (hSame ▸ hOther.symm)]
      · rw [setMark, if_neg hSame, mark?_cons, mark?_cons, ih]

theorem mem_setMark {entry : String × Mark} (hEntry : entry ∈ setMark keyid mark roots) :
    entry = (keyid, mark) ∨ entry ∈ roots := by
  induction roots with
  | nil => exact Or.inl (List.mem_singleton.mp hEntry)
  | cons first rest ih =>
      rw [setMark] at hEntry
      split at hEntry
      · rcases List.mem_cons.mp hEntry with hNew | hRest
        · exact Or.inl hNew
        · exact Or.inr (List.mem_cons_of_mem _ hRest)
      · rcases List.mem_cons.mp hEntry with hFirst | hRest
        · exact Or.inr (hFirst ▸ List.mem_cons_self)
        · exact (ih hRest).imp_right (List.mem_cons_of_mem _)

theorem setMark_nodup (hNames : (roots.map Prod.fst).Nodup) :
    ((setMark keyid mark roots).map Prod.fst).Nodup := by
  induction roots with
  | nil => simp [setMark]
  | cons first rest ih =>
      obtain ⟨hNew, hRest⟩ := List.nodup_cons.mp hNames
      rw [setMark]
      split
      · next hSame => exact List.nodup_cons.mpr ⟨hSame ▸ hNew, hRest⟩
      · next hSame =>
          refine List.nodup_cons.mpr ⟨?_, ih hRest⟩
          intro hMember
          obtain ⟨entry, hEntry, hName⟩ := List.mem_map.mp hMember
          rcases mem_setMark hEntry with rfl | hKept
          · exact hSame hName.symm
          · exact hNew (List.mem_map.mpr ⟨entry, hKept, hName⟩)

end

/-- The mark that the file holds for a root, whatever else it holds. -/
def recorded? (t : Toolkit) (file : Option Bytes) (keyid : String) : Option Mark := do
  let bytes ← file
  let value ← t.loads bytes
  let entry ← (value.member "roots").get? keyid
  (readMark (isFirstVersion (value.member "schema_version")) entry).toOption

/-- The sequence that the file holds for a root. -/
def recordedSequence (t : Toolkit) (file : Option Bytes) (keyid : String) : Int :=
  (recorded? t file keyid).elim 0 Watermark.sequence

theorem readMark_sound {first : Bool} {record : Json} {mark : Mark} (hRead : readMark first record = .ok mark) :
    Sound mark := by
  simp only [readMark, Except.bind_eq_ok_iff, require_eq_ok, exists_const, Except.ofOption_eq_ok_iff] at hRead
  obtain ⟨-, sequence, -, hPositive, hDigest⟩ := hRead
  split at hDigest
  · obtain rfl := Except.ok.inj hDigest
    exact ⟨hPositive, fun _ hNone => absurd hNone (by simp)⟩
  · simp only [Except.bind_eq_ok_iff, require_eq_ok, exists_const, Except.pure_eq_ok_iff] at hDigest
    obtain ⟨hLength, rfl⟩ := hDigest
    exact ⟨hPositive, fun _ hSome => Option.some.inj hSome ▸ hLength⟩
  · cases hDigest

/-- The marks of the members, in their order and under their names. -/
theorem readMarks_eq_ok {first : Bool} {members : List (String × Json)} {roots : Roots}
    (hRead : readMarks first members = .ok roots) :
    roots.map Prod.fst = members.map Prod.fst ∧ (∀ entry ∈ roots, Sound entry.2) ∧
      ∀ keyid, (((Json.obj members).get? keyid).bind fun entry => (readMark first entry).toOption) =
        mark? roots keyid := by
  induction members generalizing roots with
  | nil =>
      obtain rfl : [] = roots := Except.ok.inj hRead
      exact ⟨rfl, by simp, fun _ => rfl⟩
  | cons member rest ih =>
      obtain ⟨keyid, record⟩ := member
      simp only [readMarks, Except.bind_eq_ok_iff, Except.pure_eq_ok_iff] at hRead
      obtain ⟨mark, hMark, marks, hMarks, rfl⟩ := hRead
      obtain ⟨hNames, hSound, hGet⟩ := ih hMarks
      refine ⟨?_, ?_, ?_⟩
      · rw [List.map_cons, List.map_cons, hNames]
      · intro entry hEntry
        rcases List.mem_cons.mp hEntry with rfl | hRest
        · exact readMark_sound hMark
        · exact hSound entry hRest
      · intro other
        rw [mark?_cons]
        by_cases hSame : keyid = other
        · simp [Json.get?, hSame, hMark, Except.toOption]
        · rw [if_neg hSame, ← hGet other]
          simp [Json.get?, hSame]

theorem load_eq_ok {t : Toolkit} {file : Option Bytes} {roots : Roots} (hLoad : load t file = .ok roots) :
    (roots.map Prod.fst).Nodup ∧ (∀ entry ∈ roots, Sound entry.2) ∧
      ∀ keyid, recorded? t file keyid = mark? roots keyid := by
  cases file with
  | none =>
      obtain rfl : [] = roots := Except.ok.inj hLoad
      exact ⟨List.nodup_nil, by simp, fun _ => rfl⟩
  | some bytes =>
      simp only [load, Except.bind_eq_ok_iff, require_eq_ok, exists_const, Toolkit.strictJson,
        Except.ofOption_eq_ok_iff] at hLoad
      obtain ⟨-, value, hValue, hDict, -, -, -, hRoots⟩ := hLoad
      split at hRoots
      · next members hMembers =>
          simp only [Except.bind_eq_ok_iff, require_eq_ok, exists_const] at hRoots
          obtain ⟨hNames, hSound, hGet⟩ := readMarks_eq_ok hRoots.2
          refine ⟨?_, hSound, ?_⟩
          · rw [hNames]
            obtain ⟨depth, hPlain⟩ := t.plain_of_loads hValue
            rw [Json.member] at hMembers
            cases hGot : value.get? "roots" with
            | none => simp [hGot] at hMembers
            | some found =>
                obtain rfl : found = .obj members := by simpa [hGot] using hMembers
                obtain ⟨inner, hInner⟩ := hPlain.get? hGot
                exact hInner.nodup
          · intro keyid
            rw [← hGet keyid]
            simp only [recorded?, bind, Option.bind_some, hValue, hMembers]
      · cases hRoots

/-- The members of the two objects that are written are in this order. -/
theorem sorted_markJson (mark : Mark) : (markJson mark).sorted =
    .obj [("feed_sha256", match mark.digest with
      | some digest => .str digest
      | none => .null), ("sequence", .int mark.sequence)] := by
  cases hDigest : mark.digest <;>
    simp only [markJson, hDigest, Json.sorted, Json.sortedMembers, List.insertionSort_cons,
      List.insertionSort_nil, List.orderedInsert, String.reduceLE, if_false]

theorem readMark_markJson {mark : Mark} (hSound : Sound mark) :
    readMark false (markJson mark).sorted = .ok mark := by
  obtain ⟨sequence, digest⟩ := mark
  have hPositive : 1 ≤ sequence := hSound.positive
  rw [sorted_markJson]
  cases digest with
  | none => simp [readMark, Json.hasExactly, Json.member, Json.get?, Json.int?, require_of, hPositive,
      Except.ofOption, bind, Except.bind, pure, Except.pure]
  | some digest =>
      have hLength : digest.toList.length = 64 := hSound.digest digest rfl
      simp [readMark, Json.hasExactly, Json.member, Json.get?, Json.int?, require_of, hPositive,
        require_of hLength, Except.ofOption, bind, Except.bind, pure, Except.pure]

theorem get?_map_markJson (roots : Roots) (keyid : String) :
    (Json.obj (roots.map fun entry => (entry.1, markJson entry.2))).get? keyid =
      (mark? roots keyid).map markJson := by
  induction roots with
  | nil => rfl
  | cons entry rest ih =>
      rw [mark?_cons]
      by_cases hSame : entry.1 = keyid
      · simp [Json.get?, hSame]
      · rw [if_neg hSame, ← ih]
        simp [Json.get?, hSame]

theorem mark?_mem {roots : Roots} {keyid : String} {mark : Mark} (hMark : mark? roots keyid = some mark) :
    (keyid, mark) ∈ roots := by
  obtain ⟨entry, hEntry, rfl⟩ := Option.map_eq_some_iff.mp hMark
  have hName : entry.1 = keyid := by simpa using List.find?_some hEntry
  exact hName ▸ List.mem_of_find?_eq_some hEntry

/-- The names of the written marks, as those of an object. -/
theorem names_markJson (roots : Roots) :
    (roots.map fun entry => (entry.1, markJson entry.2)).map Prod.fst = roots.map Prod.fst := by
  rw [List.map_map]
  rfl

theorem plain_rootsDocument {roots : Roots} (hNames : (roots.map Prod.fst).Nodup)
    (hShort : ∀ entry ∈ roots, entry.2.sequence.natAbs < 10 ^ Json.maxDigits) :
    (rootsDocument roots).Plain readableDepth := by
  have hMark : ∀ entry ∈ roots, (markJson entry.2).Plain 30 := by
    intro entry hEntry
    have hSequence := hShort entry hEntry
    cases hDigest : entry.2.digest <;> simp [markJson, hDigest, hSequence]
  have hRoots : (Json.obj (roots.map fun entry => (entry.1, markJson entry.2))).Plain 31 := by
    rw [Json.plain_obj, names_markJson]
    refine ⟨hNames, fun member hMember => ?_⟩
    obtain ⟨entry, hEntry, rfl⟩ := List.mem_map.mp hMember
    exact hMark entry hEntry
  have hTwo : (Json.int 2).Plain 31 := (Json.plain_int 31 2).mpr
    (lt_of_lt_of_le (by decide : (2 : Int).natAbs < 10 ^ 1) (Nat.pow_le_pow_right (by decide) (by decide)))
  refine (Json.plain_obj 31 _).mpr ⟨by simp, fun member hMember => ?_⟩
  rcases List.mem_cons.mp hMember with rfl | hMember
  · exact hTwo
  · obtain rfl := List.mem_singleton.mp hMember
    exact hRoots

/-- A written file gives every mark back. -/
theorem recorded?_writeRoots (t : Toolkit) {roots : Roots} (hNames : (roots.map Prod.fst).Nodup)
    (hSound : ∀ entry ∈ roots, Sound entry.2)
    (hShort : ∀ entry ∈ roots, entry.2.sequence.natAbs < 10 ^ Json.maxDigits) (keyid : String) :
    recorded? t (some (writeRoots roots)) keyid = mark? roots keyid := by
  have hOuter : ([("schema_version", Json.int 2), ("roots",
      .obj (roots.map fun entry => (entry.1, markJson entry.2)))].map Prod.fst).Nodup := by simp
  have hInner := (names_markJson roots).symm ▸ hNames
  have hRead := t.loads_asciiText (plain_rootsDocument hNames hShort).sorted Blank.line
  have hRoots : (rootsDocument roots).sorted.member "roots" =
      (Json.obj (roots.map fun entry => (entry.1, markJson entry.2))).sorted := by
    rw [rootsDocument, Json.member, Json.get?_sorted hOuter]
    rfl
  have hVersion : (rootsDocument roots).sorted.member "schema_version" = .int 2 := by
    rw [rootsDocument, Json.member, Json.get?_sorted hOuter]
    rfl
  have hFirst : isFirstVersion (.int 2) = false := rfl
  simp only [recorded?, writeRoots, bind, Option.bind_some, hRead, hRoots, hVersion, hFirst,
    Json.get?_sorted hInner, get?_map_markJson, Option.map_map]
  cases hMark : mark? roots keyid with
  | none => rfl
  | some mark =>
      have hReadMark := readMark_markJson (hSound _ (mark?_mem hMark))
      simp only [Option.map_some, Option.bind_some, Function.comp, hReadMark, Except.toOption]

/-- The file after the record of a feed: its mark admitted the feed, and only the
mark of that root has changed. -/
structure Records (t : Toolkit) (keyid : String) (sequence : Int) (digest : String)
    (before after : Option Bytes) : Prop where
  admits : ∀ mark, recorded? t before keyid = some mark → mark.Admits sequence digest
  self : recorded? t after keyid = some ⟨sequence, some digest⟩
  others : ∀ other, other ≠ keyid → recorded? t after other = recorded? t before other

section
variable {t : Toolkit} {access : FileAccess} {trustedRootJwk : Json} {sequence : Int} {feedSha256 : String}
  {file : Option Bytes}

theorem advance_eq_ok {roots : Roots} {keyid : String} {next : Option Roots}
    (hAdvance : advance roots keyid sequence feedSha256 = .ok next) :
    (∀ mark, mark? roots keyid = some mark → mark.Admits sequence feedSha256) ∧
      ((next = none ∧ mark? roots keyid = some ⟨sequence, some feedSha256⟩) ∨
        (next = some (setMark keyid ⟨sequence, some feedSha256⟩ roots) ∧
          mark? roots keyid ≠ some ⟨sequence, some feedSha256⟩)) := by
  unfold advance at hAdvance
  cases hMark : mark? roots keyid with
  | none =>
      rw [hMark] at hAdvance
      exact ⟨fun _ hNone => absurd hNone (by simp), Or.inr ⟨(Except.ok.inj hAdvance).symm, by simp⟩⟩
  | some current =>
      rw [hMark] at hAdvance
      simp only [Except.bind_eq_ok_iff, require_eq_ok, exists_const] at hAdvance
      obtain ⟨hSequence, hDigest, hNext⟩ := hAdvance
      refine ⟨fun mark hSame => Option.some.inj hSame ▸ ⟨hSequence, hDigest⟩, ?_⟩
      split at hNext
      · next hKnown =>
          left
          refine ⟨(Except.ok.inj hNext).symm, ?_⟩
          obtain ⟨hSame, hSeen⟩ := hKnown
          rw [hSame, ← hSeen]
      · next hOther =>
          right
          refine ⟨(Except.ok.inj hNext).symm, ?_⟩
          intro hKnown
          rw [Option.some.inj hKnown] at hOther
          exact hOther ⟨rfl, rfl⟩

/-- What `record` has checked when it goes on to write, or returns. -/
theorem prepareRecord_eq_ok {next : Option Roots}
    (hPrepared : prepareRecord t access trustedRootJwk sequence feedSha256 file = .ok next) :
    ∃ roots keyid, 1 ≤ sequence ∧ isHexDigest feedSha256 = true ∧ load t file = .ok roots ∧
      jwkThumbprint t trustedRootJwk = .ok keyid ∧ advance roots keyid sequence feedSha256 = .ok next := by
  simp only [prepareRecord, Except.bind_eq_ok_iff, require_eq_ok, exists_const] at hPrepared
  obtain ⟨hPositive, hHex, -, -, roots, hLoad, keyid, hKeyid, hAdvance⟩ := hPrepared
  exact ⟨roots, keyid, hPositive, hHex, hLoad, hKeyid, hAdvance⟩

/-- Writing the marks through a temporary file. -/
theorem write_triple (access : FileAccess) (file : Option Bytes) (roots : Roots) :
    Routine.Triple (fun disk => disk.file = file)
      (do
        access.openTemporary
        Routine.ensuring (do
          access.writeTemporary roots
          access.replaceFile) access.unlink)
      (fun _ disk => (∀ entry ∈ roots, entry.2.sequence.natAbs < 10 ^ Json.maxDigits) ∧
        disk.file = some (writeRoots roots))
      fun disk => disk.file = file := by
  refine Routine.triple_bind (fun _ disk => disk.file = file) ?_ fun _ => ?_
  · refine Routine.triple_transaction (fun before after value hFile hOpens => ?_) fun _ hFile => hFile
    simp only [Except.bind_eq_ok_iff, require_eq_ok, exists_const, Except.pure_eq_ok_iff,
      Prod.mk.injEq] at hOpens
    obtain ⟨-, -, -, rfl, -⟩ := hOpens
    exact hFile
  · refine Routine.triple_ensuring (Routine.triple_bind (fun _ disk => disk.file = file ∧
      (∀ entry ∈ roots, entry.2.sequence.natAbs < 10 ^ Json.maxDigits) ∧
        disk.temporaries access.temporary = some (writeRoots roots)) ?_ fun _ => ?_)
    · refine Routine.triple_transaction (fun before after value hFile hWrites => ?_) fun _ hFile => hFile
      simp only [dumpRoots, Except.bind_eq_ok_iff, require_eq_ok, exists_const, Except.pure_eq_ok_iff,
        Prod.mk.injEq] at hWrites
      obtain ⟨content, ⟨hShort, rfl⟩, -, -, rfl, -⟩ := hWrites
      exact ⟨hFile, hShort, Function.update_self ..⟩
    · refine Routine.triple_transaction (fun before after value hBefore hReplaces => ?_)
        fun _ hBefore => hBefore.1
      obtain ⟨-, hShort, hWritten⟩ := hBefore
      simp only [Except.bind_eq_ok_iff, Except.pure_eq_ok_iff, Prod.mk.injEq] at hReplaces
      obtain ⟨-, -, rfl, -⟩ := hReplaces
      exact ⟨hShort, hWritten⟩

/-- What a record that returns has read and written: the mark of its root was there
already, or all marks are written with this one among them. -/
structure Recorded (t : Toolkit) (trustedRootJwk : Json) (sequence : Int) (feedSha256 : String)
    (before after : Option Bytes) (roots : Roots) (keyid : String) : Prop where
  positive : 1 ≤ sequence
  digest : isHexDigest feedSha256 = true
  loaded : load t before = .ok roots
  named : jwkThumbprint t trustedRootJwk = .ok keyid
  admits : ∀ mark, mark? roots keyid = some mark → mark.Admits sequence feedSha256
  file : (mark? roots keyid = some ⟨sequence, some feedSha256⟩ ∧ after = before) ∨
    (mark? roots keyid ≠ some ⟨sequence, some feedSha256⟩ ∧
      (∀ entry ∈ setMark keyid ⟨sequence, some feedSha256⟩ roots, entry.2.sequence.natAbs < 10 ^ Json.maxDigits) ∧
      after = some (writeRoots (setMark keyid ⟨sequence, some feedSha256⟩ roots)))

/-- A record that raises leaves the file as it was. -/
theorem record_writes (t : Toolkit) (access : FileAccess) (trustedRootJwk : Json) (sequence : Int)
    (feedSha256 : String) (file : Option Bytes) :
    Routine.Triple (fun disk => disk.file = file) (record t access trustedRootJwk sequence feedSha256)
      (fun _ disk => ∃ roots keyid, Recorded t trustedRootJwk sequence feedSha256 file disk.file roots keyid)
      fun disk => disk.file = file := by
  refine Routine.triple_bind (fun next disk => disk.file = file ∧
    prepareRecord t access trustedRootJwk sequence feedSha256 file = .ok next) ?_ fun next => ?_
  · exact Routine.triple_reading (fun disk next hFile hRead => ⟨hFile, hFile ▸ hRead⟩) fun _ hFile => hFile
  · refine Routine.triple_assume fun hPrepared => ?_
    obtain ⟨roots, keyid, hPositive, hHex, hLoad, hKeyid, hAdvance⟩ := prepareRecord_eq_ok hPrepared
    obtain ⟨hAdmits, hNext⟩ := advance_eq_ok hAdvance
    rcases hNext with ⟨rfl, hKnown⟩ | ⟨rfl, hOther⟩
    · exact Routine.triple_pure fun disk hFile =>
        ⟨roots, keyid, hPositive, hHex, hLoad, hKeyid, hAdmits, Or.inl ⟨hKnown, hFile⟩⟩
    · intro disk hFile
      have hWrite := write_triple access file (setMark keyid ⟨sequence, some feedSha256⟩ roots) disk hFile
      revert hWrite
      simp only
      split
      · rintro ⟨hShort, hWritten⟩
        exact ⟨roots, keyid, hPositive, hHex, hLoad, hKeyid, hAdmits, Or.inr ⟨hOther, hShort, hWritten⟩⟩
      · exact id

/-- The marks that are written are those a file may hold. -/
theorem Recorded.sound {before after : Option Bytes} {roots : Roots} {keyid : String}
    (recorded : Recorded t trustedRootJwk sequence feedSha256 before after roots keyid) :
    ∀ entry ∈ setMark keyid ⟨sequence, some feedSha256⟩ roots, Sound entry.2 := by
  intro entry hEntry
  rcases mem_setMark hEntry with rfl | hKept
  · refine ⟨recorded.positive, fun digest hDigest => ?_⟩
    have hHex := recorded.digest
    simp only [isHexDigest, Bool.and_eq_true, decide_eq_true_eq] at hHex
    exact Option.some.inj hDigest ▸ hHex.1
  · exact (load_eq_ok recorded.loaded).2.1 entry hKept

/-- A record that returns has advanced the mark of its root and no other; one that
raises leaves the file as it was. -/
theorem record_triple (t : Toolkit) (access : FileAccess) (trustedRootJwk : Json) (sequence : Int)
    (feedSha256 : String) (file : Option Bytes) :
    Routine.Triple (fun disk => disk.file = file) (record t access trustedRootJwk sequence feedSha256)
      (fun _ disk => ∃ keyid, jwkThumbprint t trustedRootJwk = .ok keyid ∧
        Records t keyid sequence feedSha256 file disk.file)
      fun disk => disk.file = file := by
  refine (record_writes t access trustedRootJwk sequence feedSha256 file).returning ?_
  rintro - disk ⟨roots, keyid, recorded⟩
  refine ⟨keyid, recorded.named, ?_⟩
  obtain ⟨hNames, -, hRecorded⟩ := load_eq_ok recorded.loaded
  have hAdmits := recorded.admits
  rcases recorded.file with ⟨hKnown, hFile⟩ | ⟨-, hShort, hFile⟩
  · rw [hFile]
    exact ⟨hRecorded keyid ▸ hAdmits, (hRecorded keyid).trans hKnown, fun _ _ => rfl⟩
  · have hAfter := recorded?_writeRoots t (setMark_nodup hNames) recorded.sound hShort
    rw [hFile]
    refine ⟨hRecorded keyid ▸ hAdmits, ?_, fun other hOther => ?_⟩
    · rw [hAfter, mark?_setMark_self]
    · rw [hAfter, mark?_setMark_of_ne hOther, hRecorded]

end

end Lifecycle

end VouchSpec
