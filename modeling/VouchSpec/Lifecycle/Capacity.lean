import VouchSpec.Library.TextLength
import VouchSpec.Lifecycle.Memory
import VouchSpec.Signing.RoundTrip

/-! What the store can hold: a record writes whatever it is given, and the file is
read again only while its roots are few and its bytes are not too many. -/

namespace VouchSpec

namespace Lifecycle

open Signing

/-- The bytes that the entry of a root takes in the file. -/
def entrySize (entry : String × Mark) : Nat :=
  (Json.str entry.1).size + (match entry.2.digest with
    | some digest => (Json.str digest).size
    | none => 4) + (Nat.toDigits 10 entry.2.sequence.natAbs).length + 30

/-- There are at most a hundred roots, and they fit into the bytes that are read again. -/
def HasRoom (roots : Roots) : Prop :=
  roots.length ≤ 100 ∧ (roots.map entrySize).sum + 31 ≤ 64000

instance (roots : Roots) : Decidable (HasRoom roots) := inferInstanceAs (Decidable (_ ∧ _))

section
variable {t : Toolkit} {roots loaded : Roots} {keyid : String} {mark : Mark}

theorem size_markJson {mark : Mark} (hPositive : 0 ≤ mark.sequence) :
    (markJson mark).sorted.size = (match mark.digest with
      | some digest => (Json.str digest).size
      | none => 4) + (Nat.toDigits 10 mark.sequence.natAbs).length + 28 := by
  have hNames : (Json.str "feed_sha256").size = 13 ∧ (Json.str "sequence").size = 10 := by decide +kernel
  have hNull : Json.null.size = 4 := by decide +kernel
  rw [sorted_markJson, Json.size_obj (by simp)]
  simp only [List.map_cons, List.map_nil, List.sum_cons, List.sum_nil, Json.memberSize, Json.size_int hPositive, hNames]
  cases mark.digest with
  | none =>
      simp only [hNull]
      omega
  | some digest =>
      simp only
      omega

theorem memberSize_entry {entry : String × Mark} (hPositive : 0 ≤ entry.2.sequence) :
    Json.memberSize (entry.1, (markJson entry.2).sorted) = entrySize entry := by
  simp only [Json.memberSize, size_markJson hPositive, entrySize]
  omega

/-- The length of a written file. -/
theorem writeRoots_length (hRoots : roots ≠ []) (hSound : ∀ entry ∈ roots, Sound entry.2) :
    (writeRoots roots).length = (roots.map entrySize).sum + 31 := by
  have hNames : (Json.str "roots").size = 7 ∧ (Json.str "schema_version").size = 16 ∧ (Json.int 2).size = 1 := by
    decide +kernel
  have hEntries : (roots.map fun entry => (entry.1, markJson entry.2)).map (fun member => (member.1, member.2.sorted)) =
      roots.map fun entry => (entry.1, (markJson entry.2).sorted) := by
    rw [List.map_map]
    rfl
  have hSizes : (roots.map fun entry => (entry.1, (markJson entry.2).sorted)).map Json.memberSize =
      roots.map entrySize := by
    rw [List.map_map]
    exact List.map_congr_left fun entry hEntry => memberSize_entry (by have := (hSound entry hEntry).positive; omega)
  have hInner : (Json.obj (roots.map fun entry => (entry.1, markJson entry.2))).sorted.size =
      (roots.map entrySize).sum + 1 := by
    rw [Json.size_sorted_obj, hEntries, Json.size_obj (by simpa using hRoots), hSizes]
  have hTwo : (Json.int 2).sorted = Json.int 2 := rfl
  have hText : (rootsDocument roots).sorted.size = (roots.map entrySize).sum + 30 := by
    rw [rootsDocument, Json.size_sorted_obj, Json.size_obj (by simp)]
    simp only [List.map_cons, List.map_nil, List.sum_cons, List.sum_nil, Json.memberSize, hTwo, hInner, hNames]
    omega
  have hLine : (Bytes.utf8 [Char.ofNat 10]).length = 1 := by decide +kernel
  rw [writeRoots, Bytes.utf8_append, List.length_append, Json.size_utf8, hText, hLine]

/-- What is read of the members that were written. -/
theorem readMarks_sorted {members : Roots} (hSound : ∀ entry ∈ members, Sound entry.2) :
    readMarks false (members.map fun entry => (entry.1, (markJson entry.2).sorted)) = .ok members := by
  induction members with
  | nil => rfl
  | cons entry rest ih =>
      obtain ⟨keyid, mark⟩ := entry
      rw [List.map_cons, readMarks, readMark_markJson (hSound _ List.mem_cons_self),
        ih fun other hOther => hSound other (List.mem_cons_of_mem _ hOther)]
      rfl

/-- A written file is read again, to the marks that were written, while they have room. -/
theorem load_writeRoots (t : Toolkit) (hRoots : roots ≠ []) (hNames : (roots.map Prod.fst).Nodup)
    (hSound : ∀ entry ∈ roots, Sound entry.2)
    (hShort : ∀ entry ∈ roots, entry.2.sequence.natAbs < 10 ^ Json.maxDigits) :
    (HasRoom roots ∧ ∃ loaded, load t (some (writeRoots roots)) = .ok loaded ∧ loaded.Perm roots) ∨
      (¬HasRoom roots ∧ ∃ message, load t (some (writeRoots roots)) = .error (invalidState message)) := by
  have hRead : t.loads (writeRoots roots) = some (rootsDocument roots).sorted :=
    t.loads_asciiText (plain_rootsDocument hNames hShort).sorted Blank.line
  have hOrder : (rootsDocument roots).sorted = .obj [("roots", (Json.obj (roots.map fun entry =>
      (entry.1, markJson entry.2))).sorted), ("schema_version", .int 2)] := by
    simp only [rootsDocument, Json.sorted, Json.sortedMembers, List.insertionSort_cons, List.insertionSort_nil,
      List.orderedInsert, String.reduceLE, if_false]
  obtain ⟨written, hWritten, hPerm⟩ : ∃ written : Roots,
      (Json.obj (roots.map fun entry => (entry.1, markJson entry.2))).sorted =
        .obj (written.map fun entry => (entry.1, (markJson entry.2).sorted)) ∧ written.Perm roots := by
    refine ⟨roots.insertionSort fun first second => first.1 ≤ second.1, ?_, List.perm_insertionSort _ _⟩
    have hSorted := List.map_insertionSort (fun first second : String × Mark => first.1 ≤ second.1)
      (fun first second : String × Json => first.1 ≤ second.1)
      (fun entry : String × Mark => (entry.1, (markJson entry.2).sorted)) roots fun _ _ _ _ => Iff.rfl
    rw [Json.sorted, Json.sortedMembers_eq_map, List.map_map, hSorted]
    rfl
  have hLoad : load t (some (writeRoots roots)) = (do
      require ((roots.map entrySize).sum + 31 ≤ 64000) (invalidState "lifecycle sequence state is unsafe or too large")
      require (roots.length ≤ 100) (invalidState "lifecycle sequence roots are invalid")
      return written) := by
    have hMarks := readMarks_sorted fun entry hEntry => hSound entry (hPerm.mem_iff.mp hEntry)
    have hCount : (written.map fun entry => (entry.1, (markJson entry.2).sorted)).length = roots.length := by
      rw [List.length_map, hPerm.length_eq]
    simp only [load, writeRoots_length hRoots hSound, Toolkit.strictJson, hRead, hOrder, hWritten, Except.ofOption]
    simp [isDict, isVersion, isFirstVersion, Json.member, Json.get?, Json.hasExactly, require_of, bind, Except.bind,
      hMarks, hCount, pure, Except.pure]
  by_cases hBytes : (roots.map entrySize).sum + 31 ≤ 64000
  · by_cases hCount : roots.length ≤ 100
    · left
      refine ⟨⟨hCount, hBytes⟩, written, ?_, hPerm⟩
      rw [hLoad, require_of hBytes, require_of hCount]
      rfl
    · right
      refine ⟨fun room => hCount room.1, "lifecycle sequence roots are invalid", ?_⟩
      rw [hLoad, require_of hBytes, require, if_neg hCount]
      rfl
  · right
    refine ⟨fun room => hBytes room.2, "lifecycle sequence state is unsafe or too large", ?_⟩
    rw [hLoad, require, if_neg hBytes]
    rfl

theorem setMark_ne_nil : setMark keyid mark roots ≠ [] := by
  cases roots with
  | nil => simp [setMark]
  | cons entry rest =>
      rw [setMark]
      split <;> simp

theorem mark?_eq_some_iff (hNames : (roots.map Prod.fst).Nodup) : mark? roots keyid = some mark ↔ (keyid, mark) ∈ roots := by
  refine ⟨mark?_mem, fun hEntry => ?_⟩
  induction roots with
  | nil => cases hEntry
  | cons entry rest ih =>
      obtain ⟨hNew, hRest⟩ := List.nodup_cons.mp hNames
      rw [mark?_cons]
      rcases List.mem_cons.mp hEntry with rfl | hLater
      · rw [if_pos rfl]
      · have hOther : entry.1 ≠ keyid := by
          rintro rfl
          exact hNew (List.mem_map.mpr ⟨_, hLater, rfl⟩)
        rw [if_neg hOther, ih hRest hLater]

/-- Marks under distinct names may be listed in any order. -/
theorem mark?_perm (hNames : (roots.map Prod.fst).Nodup) (hPerm : loaded.Perm roots) (keyid : String) :
    mark? loaded keyid = mark? roots keyid := by
  apply Option.ext
  intro mark
  rw [mark?_eq_some_iff hNames, mark?_eq_some_iff (((hPerm.map Prod.fst).nodup_iff).mpr hNames), hPerm.mem_iff]

/-- Two lists of the same marks are listed in two orders. -/
theorem perm_of_mark? (hLoaded : (loaded.map Prod.fst).Nodup) (hNames : (roots.map Prod.fst).Nodup)
    (hSame : ∀ keyid, mark? loaded keyid = mark? roots keyid) : loaded.Perm roots := by
  rw [List.perm_ext_iff_of_nodup (hLoaded.of_map _) (hNames.of_map _)]
  rintro ⟨keyid, mark⟩
  rw [← mark?_eq_some_iff hLoaded, ← mark?_eq_some_iff hNames, hSame]

end

/-- One call of `record`. -/
structure Recording where
  trustedRootJwk : Json
  sequence : Int
  feedSha256 : String
  access : FileAccess

namespace Recording

variable (t : Toolkit) (recording : Recording)

def run : Routine Disk Raised Unit :=
  record t recording.access recording.trustedRootJwk recording.sequence recording.feedSha256

/-- The call returns. -/
def Accepted (disk : Disk) : Prop := (recording.run t disk).1 = .ok ()

def after (disk : Disk) : Disk := (recording.run t disk).2

def mark : Mark := ⟨recording.sequence, some recording.feedSha256⟩

/-- The mark is what the file holds already, or the marks with it among them have room. -/
def Fits (disk : Disk) : Prop :=
  ∀ roots keyid, load t disk.file = .ok roots → jwkThumbprint t recording.trustedRootJwk = .ok keyid →
    mark? roots keyid = some recording.mark ∨ HasRoom (setMark keyid recording.mark roots)

/-- The file after the call is read as the marks before it with the one root updated. -/
def ReadsBack (disk : Disk) : Prop :=
  ∃ roots keyid written, load t disk.file = .ok roots ∧ jwkThumbprint t recording.trustedRootJwk = .ok keyid ∧
    load t (recording.after t disk).file = .ok written ∧ (written.map Prod.fst).Nodup ∧
    ∀ other, mark? written other = if other = keyid then some recording.mark else mark? roots other

variable {t recording} {disk : Disk}

theorem recorded (hAccepted : recording.Accepted t disk) : ∃ roots keyid, Recorded t recording.trustedRootJwk
    recording.sequence recording.feedSha256 disk.file (recording.after t disk).file roots keyid := by
  have hReturns : Routine.Returns (recording.run t) disk () (recording.after t disk) := Prod.ext hAccepted rfl
  exact (record_writes t recording.access recording.trustedRootJwk recording.sequence recording.feedSha256
    disk.file).returns rfl hReturns

theorem file_of_rejected (hRejected : ¬recording.Accepted t disk) : (recording.after t disk).file = disk.file := by
  have hRun := record_writes t recording.access recording.trustedRootJwk recording.sequence recording.feedSha256
    disk.file disk rfl
  rw [Accepted, run] at hRejected
  rw [after, run]
  revert hRun hRejected
  cases record t recording.access recording.trustedRootJwk recording.sequence recording.feedSha256 disk with
  | mk outcome left =>
      cases outcome with
      | ok value => exact fun hRejected _ => absurd rfl hRejected
      | error error => exact fun _ hFile => hFile

/-- An accepted call fills the file exactly up to its room. -/
theorem readsBack_iff (hAccepted : recording.Accepted t disk) : recording.ReadsBack t disk ↔ recording.Fits t disk := by
  obtain ⟨roots, keyid, recorded⟩ := recording.recorded hAccepted
  obtain ⟨hNames, -, -⟩ := load_eq_ok recorded.loaded
  have hUpdated : ∀ other, mark? (setMark keyid recording.mark roots) other =
      if other = keyid then some recording.mark else mark? roots other := by
    intro other
    by_cases hOwn : other = keyid
    · rw [if_pos hOwn, hOwn, mark?_setMark_self]
    · rw [if_neg hOwn, mark?_setMark_of_ne hOwn]
  rcases recorded.file with ⟨hKnown, hFile⟩ | ⟨hOther, hShort, hFile⟩
  · constructor
    · intro _ found name hLoad hName
      obtain rfl := Except.ok.inj (recorded.loaded.symm.trans hLoad)
      obtain rfl := Except.ok.inj (recorded.named.symm.trans hName)
      exact Or.inl hKnown
    · intro _
      refine ⟨roots, keyid, roots, recorded.loaded, recorded.named, hFile ▸ recorded.loaded, hNames, fun other => ?_⟩
      by_cases hOwn : other = keyid
      · rw [if_pos hOwn, hOwn]
        exact hKnown
      · rw [if_neg hOwn]
  · have hWritten : ((setMark keyid recording.mark roots).map Prod.fst).Nodup := setMark_nodup hNames
    rcases load_writeRoots t setMark_ne_nil hWritten recorded.sound hShort with
      ⟨room, written, hLoad, hPerm⟩ | ⟨hFull, message, hLoad⟩
    · constructor
      · intro _ found name hFound hName
        obtain rfl := Except.ok.inj (recorded.loaded.symm.trans hFound)
        obtain rfl := Except.ok.inj (recorded.named.symm.trans hName)
        exact Or.inr room
      · intro _
        refine ⟨roots, keyid, written, recorded.loaded, recorded.named, hFile ▸ hLoad,
          ((hPerm.map Prod.fst).nodup_iff).mpr hWritten, fun other => ?_⟩
        rw [mark?_perm hWritten hPerm, hUpdated]
    · constructor
      · rintro ⟨_, _, _, _, _, hRead, _⟩
        rw [hFile] at hRead
        cases hLoad.symm.trans hRead
      · intro hFits
        rcases hFits roots keyid recorded.loaded recorded.named with hSame | room
        · exact absurd hSame hOther
        · exact absurd room hFull

end Recording

section
variable (t : Toolkit)

/-- The store after calls one after the other. -/
def afterAll (disk : Disk) (recordings : List Recording) : Disk :=
  recordings.foldl (fun disk recording => recording.after t disk) disk

/-- Every accepted call is read back, and the store is never left unreadable. -/
structure Endures (disk : Disk) (recordings : List Recording) : Prop where
  readsBack : ∀ before recording after, recordings = before ++ recording :: after →
    recording.Accepted t (afterAll t disk before) → recording.ReadsBack t (afterAll t disk before)
  readable : ∀ before after, recordings = before ++ after → ∃ roots, load t (afterAll t disk before).file = .ok roots

/-- Every accepted call fits when it is made. -/
def AllFit (disk : Disk) (recordings : List Recording) : Prop :=
  ∀ before recording after, recordings = before ++ recording :: after →
    recording.Accepted t (afterAll t disk before) → recording.Fits t (afterAll t disk before)

variable {t}

/-- A call leaves the store readable when an accepted one fits. -/
theorem Recording.after_readable {recording : Recording} {disk : Disk} (hReadable : ∃ roots, load t disk.file = .ok roots)
    (hFits : recording.Accepted t disk → recording.Fits t disk) :
    ∃ roots, load t (recording.after t disk).file = .ok roots := by
  by_cases hAccepted : recording.Accepted t disk
  · obtain ⟨-, -, written, -, -, hLoad, -⟩ := (recording.readsBack_iff hAccepted).mpr (hFits hAccepted)
    exact ⟨written, hLoad⟩
  · rwa [recording.file_of_rejected hAccepted]

theorem afterAll_readable {disk : Disk} {recordings : List Recording} (hReadable : ∃ roots, load t disk.file = .ok roots)
    (hFit : AllFit t disk recordings) : ∃ roots, load t (afterAll t disk recordings).file = .ok roots := by
  induction recordings generalizing disk with
  | nil => exact hReadable
  | cons recording rest ih =>
      refine ih (recording.after_readable hReadable (hFit [] recording rest rfl)) ?_
      intro before next after hRest
      exact hFit (recording :: before) next after (by rw [hRest]; rfl)

/-- The store endures a run of calls exactly when each accepted call fits. -/
theorem endures_iff (t : Toolkit) (disk : Disk) (recordings : List Recording)
    (hReadable : ∃ roots, load t disk.file = .ok roots) : Endures t disk recordings ↔ AllFit t disk recordings := by
  constructor
  · intro endures before recording after hRun hAccepted
    exact (recording.readsBack_iff hAccepted).mp (endures.readsBack before recording after hRun hAccepted)
  · intro hFit
    refine ⟨fun before recording after hRun hAccepted => ?_, fun before after hRun => ?_⟩
    · exact (recording.readsBack_iff hAccepted).mpr (hFit before recording after hRun hAccepted)
    · refine afterAll_readable hReadable fun first recording rest hBefore => ?_
      exact hFit first recording (rest ++ after) (by rw [hRun, hBefore]; simp)

end

section
variable {t : Toolkit}

/-- Printable characters other than quotes and backslashes are written as they are. -/
theorem size_str_safe {text : String} (hSafe : ∀ c ∈ text.toList, Safe c) : (Json.str text).size = text.toList.length + 2 := by
  have hQuote : Json.quote.toNat < 127 := by decide
  have hAscii : ∀ c ∈ Json.quote :: (text.toList ++ [Json.quote]), c.toNat < 127 := by
    intro c hc
    rcases List.mem_cons.mp hc with rfl | hRest
    · exact hQuote
    · rcases List.mem_append.mp hRest with hText | hLast
      · exact (hSafe c hText).2.1
      · rwa [List.mem_singleton.mp hLast]
  rw [Json.size, Json.asciiText, Json.text, stringText_safe hSafe, Json.spelling_ascii.ascii hAscii]
  simp

theorem record_temporary (t : Toolkit) (access : FileAccess) (trustedRootJwk : Json) (sequence : Int)
    (feedSha256 : String) :
    Routine.Triple (fun disk => disk.temporaries access.temporary = none)
      (record t access trustedRootJwk sequence feedSha256)
      (fun _ disk => disk.temporaries access.temporary = none)
      fun disk => disk.temporaries access.temporary = none := by
  refine Routine.triple_bind (fun _ disk => disk.temporaries access.temporary = none) ?_ fun next => ?_
  · exact Routine.triple_reading (fun _ _ hAbsent _ => hAbsent) fun _ hAbsent => hAbsent
  · cases next with
    | none => exact Routine.triple_pure fun _ hAbsent => hAbsent
    | some roots =>
        refine Routine.triple_bind (fun _ _ => True) ?_ fun _ => ?_
        · exact Routine.triple_transaction (fun _ _ _ _ _ => trivial) fun _ hAbsent => hAbsent
        · have hUnlinked : ∀ disk, (access.unlink disk).temporaries access.temporary = none :=
            fun _ => Function.update_self ..
          exact Routine.triple_ensuring (Routine.triple_of_outcome fun _ _ => hUnlinked _)

variable {Key : Type} {scheme : Ed25519 Key}

/-- A record for a key of the root, with a sequence and a digest. -/
def recordingFor (scheme : Ed25519 Key) (sequence : Int) (digest : Digest) (key : Key) : Recording where
  trustedRootJwk := publicJwk scheme key
  sequence
  feedSha256 := digest.hexdigest
  access := { temporary := ".sequences.tmp" }

/-- The marks of a store over which roots have been recorded once each. -/
def marksFor (t : Toolkit) (scheme : Ed25519 Key) (sequence : Int) (digest : Digest) (keys : List Key) : Roots :=
  keys.map fun key => (keyidOf t scheme key, ⟨sequence, some digest.hexdigest⟩)

theorem entrySize_marksFor {sequence : Int} {digest : Digest} {keys : List Key} :
    ((marksFor t scheme sequence digest keys).map entrySize).sum =
      keys.length * (141 + (Nat.toDigits 10 sequence.natAbs).length) := by
  have hDigits : ∀ c ∈ "0123456789abcdef".toList, Safe c := by simp [Safe]
  have hDigest : ∀ c ∈ digest.hexdigest.toList, Safe c := by
    intro c hc
    have hHex := isHexDigest_hexdigest digest
    simp only [isHexDigest, Bool.and_eq_true, List.all_eq_true, decide_eq_true_eq] at hHex
    exact hDigits c (hHex.2 c hc)
  have hEntry : ∀ key : Key, entrySize (keyidOf t scheme key, ⟨sequence, some digest.hexdigest⟩) =
      141 + (Nat.toDigits 10 sequence.natAbs).length := by
    intro key
    have hKeyid : ∀ c ∈ (keyidOf t scheme key).toList, Safe c := safe_keyidOf key
    simp only [entrySize, size_str_safe hKeyid, keyidOf_length, size_str_safe hDigest,
      digest.hexdigest_length]
    omega
  rw [marksFor, List.map_map, Function.comp_def]
  simp only [hEntry, List.map_const', List.sum_replicate_nat]

/-- What holds after roots have been recorded once each while they had room. -/
structure Filled (t : Toolkit) (scheme : Ed25519 Key) (sequence : Int) (digest : Digest) (keys : List Key)
    (disk : Disk) : Prop where
  absent : disk.temporaries ".sequences.tmp" = none
  loaded : ∃ roots, load t disk.file = .ok roots ∧ roots.Perm (marksFor t scheme sequence digest keys)

/-- The next root is recorded, and then all of them are written. -/
theorem Filled.next {sequence : Int} {digest : Digest} {keys : List Key} {key : Key} {disk : Disk}
    (filled : Filled t scheme sequence digest keys disk) (hPositive : 1 ≤ sequence)
    (hShort : sequence.natAbs < 10 ^ Json.maxDigits) (hNew : keyidOf t scheme key ∉ keys.map (keyidOf t scheme)) :
    (recordingFor scheme sequence digest key).Accepted t disk ∧
      ∃ roots, load t disk.file = .ok roots ∧ roots.Perm (marksFor t scheme sequence digest keys) ∧
        mark? roots (keyidOf t scheme key) = none := by
  obtain ⟨roots, hLoad, hPerm⟩ := filled.loaded
  have hNone : mark? roots (keyidOf t scheme key) = none := by
    rw [Option.eq_none_iff_forall_ne_some]
    intro mark hMark
    obtain ⟨other, hOther, hSame⟩ := List.mem_map.mp (hPerm.mem_iff.mp (mark?_mem hMark))
    exact hNew (List.mem_map.mpr ⟨other, hOther, (Prod.mk.inj hSame).1⟩)
  refine ⟨?_, roots, hLoad, hPerm, hNone⟩
  have hZero : recordedSequence t disk.file (keyidOf t scheme key) = 0 := by
    rw [recordedSequence, (load_eq_ok hLoad).2.2, hNone]
    rfl
  exact (record_ok_iff hLoad (jwkThumbprint_publicJwk t scheme key) hPositive hShort (by omega)).mpr
    ⟨rfl, rfl, filled.absent, rfl, rfl⟩

/-- A mark under a new name comes last. -/
theorem setMark_new {roots : Roots} {keyid : String} {mark : Mark} (hNew : mark? roots keyid = none) :
    setMark keyid mark roots = roots ++ [(keyid, mark)] := by
  induction roots with
  | nil => rfl
  | cons entry rest ih =>
      rw [mark?_cons] at hNew
      by_cases hSame : entry.1 = keyid
      · rw [if_pos hSame] at hNew
        cases hNew
      · rw [if_neg hSame] at hNew
        rw [setMark, if_neg hSame, ih hNew]
        rfl

/-- Room does not depend on the order of the roots. -/
theorem hasRoom_perm {first second : Roots} (hPerm : first.Perm second) : HasRoom first ↔ HasRoom second := by
  rw [HasRoom, HasRoom, hPerm.length_eq, (hPerm.map entrySize).sum_nat]

theorem Filled.marks {sequence : Int} {digest : Digest} {keys : List Key} {key : Key} {roots : Roots}
    (hPerm : roots.Perm (marksFor t scheme sequence digest keys))
    (hNone : mark? roots (keyidOf t scheme key) = none) :
    (setMark (keyidOf t scheme key) (recordingFor scheme sequence digest key).mark roots).Perm
      (marksFor t scheme sequence digest (keys ++ [key])) := by
  rw [setMark_new hNone, marksFor, List.map_append]
  exact hPerm.append_right _

/-- The accepted record of a new root is read back exactly when all roots have room. -/
theorem Filled.readsBack_iff {sequence : Int} {digest : Digest} {keys : List Key} {key : Key} {disk : Disk}
    (filled : Filled t scheme sequence digest keys disk) (hPositive : 1 ≤ sequence)
    (hShort : sequence.natAbs < 10 ^ Json.maxDigits) (hNew : keyidOf t scheme key ∉ keys.map (keyidOf t scheme)) :
    (recordingFor scheme sequence digest key).ReadsBack t disk ↔
      HasRoom (marksFor t scheme sequence digest (keys ++ [key])) := by
  obtain ⟨hAccepted, roots, hLoad, hPerm, hNone⟩ := filled.next hPositive hShort hNew
  rw [Recording.readsBack_iff hAccepted, ← hasRoom_perm (Filled.marks hPerm hNone)]
  constructor
  · intro hFits
    rcases hFits roots _ hLoad (jwkThumbprint_publicJwk t scheme key) with hKnown | room
    · rw [hNone] at hKnown
      cases hKnown
    · exact room
  · intro room found keyid hFound hKeyid
    obtain rfl := Except.ok.inj (hLoad.symm.trans hFound)
    obtain rfl := Except.ok.inj ((jwkThumbprint_publicJwk t scheme key).symm.trans hKeyid)
    exact Or.inr room

/-- Roots that have room together are recorded one after the other. -/
theorem filled_of_room {sequence : Int} {digest : Digest} {keys : List Key} (hPositive : 1 ≤ sequence)
    (hShort : sequence.natAbs < 10 ^ Json.maxDigits) (hNames : (keys.map (keyidOf t scheme)).Nodup)
    (hRoom : HasRoom (marksFor t scheme sequence digest keys)) :
    Filled t scheme sequence digest keys (afterAll t ⟨none, fun _ => none⟩ (keys.map (recordingFor scheme sequence digest))) := by
  induction keys using List.reverseRecOn with
  | nil => exact ⟨rfl, [], rfl, List.Perm.refl _⟩
  | append_singleton keys key ih =>
      rw [List.map_append, List.map_singleton, List.nodup_append] at hNames
      obtain ⟨hBefore, -, hApart⟩ := hNames
      have hNew : keyidOf t scheme key ∉ keys.map (keyidOf t scheme) := fun hOld => hApart _ hOld _ (by simp) rfl
      have hSmaller : HasRoom (marksFor t scheme sequence digest keys) := by
        obtain ⟨hCount, hBytes⟩ := hRoom
        rw [entrySize_marksFor, List.length_append, List.length_singleton, Nat.add_mul] at hBytes
        rw [marksFor, List.length_map, List.length_append] at hCount
        refine ⟨?_, ?_⟩
        · rw [marksFor, List.length_map]
          omega
        · rw [entrySize_marksFor]
          omega
      have filled := ih hBefore hSmaller
      obtain ⟨-, roots, hLoad, hPerm, hNone⟩ := filled.next hPositive hShort hNew
      obtain ⟨found, keyid, written, hFound, hKeyid, hWritten, hDistinct, hMarks⟩ :=
        (filled.readsBack_iff hPositive hShort hNew).mpr hRoom
      obtain rfl := Except.ok.inj (hLoad.symm.trans hFound)
      obtain rfl := Except.ok.inj ((jwkThumbprint_publicJwk t scheme key).symm.trans hKeyid)
      rw [List.map_append, List.map_singleton, afterAll, List.foldl_concat]
      have hAbsent := (record_temporary t { temporary := ".sequences.tmp" } (publicJwk scheme key) sequence
        digest.hexdigest).outcome filled.absent
      refine ⟨hAbsent, written, hWritten, ?_⟩
      have hNames : (roots.map Prod.fst).Nodup := (load_eq_ok hLoad).1
      refine (perm_of_mark? hDistinct (setMark_nodup hNames) fun other => ?_).trans (Filled.marks hPerm hNone)
      rw [hMarks]
      by_cases hOwn : other = keyidOf t scheme key
      · rw [if_pos hOwn, hOwn, mark?_setMark_self]
      · rw [if_neg hOwn, mark?_setMark_of_ne hOwn]

/-- Roots that have room without the last one, and not with it, make the store unreadable. -/
theorem not_endures_of_full {sequence : Int} {digest : Digest} {keys : List Key} {key : Key} (hPositive : 1 ≤ sequence)
    (hShort : sequence.natAbs < 10 ^ Json.maxDigits) (hNames : ((keys ++ [key]).map (keyidOf t scheme)).Nodup)
    (hRoom : HasRoom (marksFor t scheme sequence digest keys))
    (hFull : ¬HasRoom (marksFor t scheme sequence digest (keys ++ [key]))) :
    ¬Endures t ⟨none, fun _ => none⟩ ((keys ++ [key]).map (recordingFor scheme sequence digest)) := by
  intro endures
  rw [List.map_append, List.map_singleton, List.nodup_append] at hNames
  obtain ⟨hBefore, -, hApart⟩ := hNames
  have hNew : keyidOf t scheme key ∉ keys.map (keyidOf t scheme) := fun hOld => hApart _ hOld _ (by simp) rfl
  have filled := filled_of_room hPositive hShort hBefore hRoom
  have hRead := endures.readsBack _ (recordingFor scheme sequence digest key) [] (by simp)
    (filled.next hPositive hShort hNew).1
  exact hFull ((filled.readsBack_iff hPositive hShort hNew).mp hRead)

end

/-- A root, and fourteen others before it. -/
def lastKey : Bytes := [14]

def firstKeys : List Bytes := (List.range 14).map fun number => [UInt8.ofNat number]

theorem keys_distinct : ((firstKeys ++ [lastKey]).map (keyidOf .standard (.keyedDigest .standard))).Nodup := by
  decide +kernel

theorem length_toDigits_pow (exponent : Nat) : (Nat.toDigits 10 (10 ^ exponent)).length = exponent + 1 := by
  have hLess : (Nat.toDigits 10 (10 ^ exponent)).length ≤ exponent + 1 := by
    rw [Nat.length_toDigits_le_iff (by omega) (by omega)]
    exact Nat.pow_lt_pow_right (by omega) (Nat.lt_succ_self exponent)
  have hMore : ¬(Nat.toDigits 10 (10 ^ exponent)).length ≤ exponent := by
    intro hShort
    cases exponent with
    | zero => exact absurd (List.length_eq_zero_iff.mp (Nat.le_zero.mp hShort)) Nat.toDigits_ne_nil
    | succ exponent =>
        rw [Nat.length_toDigits_le_iff (by omega) (by omega)] at hShort
        exact lt_irrefl _ hShort
  omega

/-- The smallest sequence of as many digits as may be written. -/
def longSequence : Nat := 10 ^ (Json.maxDigits - 1)

theorem longSequence_lt : longSequence < 10 ^ Json.maxDigits :=
  Nat.pow_lt_pow_right (by omega) (Nat.sub_lt (by decide) (by decide))

theorem digits_longSequence : (Nat.toDigits 10 longSequence).length = 4300 :=
  length_toDigits_pow _

/-- Fifteen roots are recorded with sequences of 4300 digits, and then the store is not
read any more. -/
theorem overfull_unreadable : ¬Endures .standard ⟨none, fun _ => none⟩ ((firstKeys ++ [lastKey]).map
    (recordingFor (.keyedDigest .standard) longSequence (Platform.standard.sha256 []))) := by
  have hDigits : (Nat.toDigits 10 (longSequence : Int).natAbs).length = 4300 := by
    rw [Int.natAbs_natCast, digits_longSequence]
  have hPositive : 1 ≤ (longSequence : Int) := Int.natCast_pos.mpr (Nat.pow_pos (by decide))
  have hShort : (longSequence : Int).natAbs < 10 ^ Json.maxDigits := by
    rw [Int.natAbs_natCast]
    exact longSequence_lt
  have hCount : firstKeys.length = 14 := rfl
  refine not_endures_of_full hPositive hShort keys_distinct ?_ ?_
  · refine ⟨?_, ?_⟩
    · rw [marksFor, List.length_map, hCount]
      omega
    · rw [entrySize_marksFor, hDigits, hCount]
      omega
  · rintro ⟨-, hBytes⟩
    rw [entrySize_marksFor, hDigits, List.length_append, hCount, List.length_singleton] at hBytes
    omega

/-- A record over an empty store, which is then read again. -/
theorem endures_iff_first : Endures .standard ⟨none, fun _ => none⟩
    [recordingFor (.keyedDigest .standard) 1 (Platform.standard.sha256 []) lastKey] := by
  refine (endures_iff .standard ⟨none, fun _ => none⟩ _ ⟨[], rfl⟩).mpr ?_
  intro before recording after hRun _
  obtain ⟨rfl, rfl⟩ : before = [] ∧ recording = recordingFor (.keyedDigest .standard) 1 (Platform.standard.sha256 []) lastKey := by
    cases before with
    | nil => exact ⟨rfl, (List.cons.inj hRun).1.symm⟩
    | cons first rest => simp at hRun
  intro roots keyid hLoad hKeyid
  obtain rfl : [] = roots := Except.ok.inj hLoad
  obtain rfl := Except.ok.inj ((jwkThumbprint_publicJwk .standard (.keyedDigest .standard) lastKey).symm.trans hKeyid)
  right
  have hBytes := @entrySize_marksFor .standard _ (.keyedDigest .standard) 1 (Platform.standard.sha256 []) [lastKey]
  refine ⟨by simp [setMark], ?_⟩
  have hOne : (Nat.toDigits 10 (1 : Int).natAbs).length = 1 := rfl
  rw [hOne] at hBytes
  have hMarks : setMark (keyidOf .standard (.keyedDigest .standard) lastKey) (recordingFor (.keyedDigest .standard) 1
      (Platform.standard.sha256 []) lastKey).mark [] =
      marksFor .standard (.keyedDigest .standard) 1 (Platform.standard.sha256 []) [lastKey] := rfl
  rw [hMarks, hBytes]
  simp

end Lifecycle

end VouchSpec
