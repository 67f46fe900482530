import VouchSpec.Inspection.Provenance
import VouchSpec.Inspection.Sample

/-! The response of Git about the blobs of a commit: which byte strings are the frames of the
captured files, one after the other, and which others pass for them. -/

namespace VouchSpec

namespace Inspection

open StageB (fieldsOf intOf? digitsOf? isDigitByte)

/-- A size in decimal digits. -/
def numeral (size : Nat) : Bytes := Bytes.ascii (shown size)

/-- A header line for a file; the name of the object is not looked at. -/
structure IsHeader (item : FileData) (header : Bytes) : Prop where
  oneLine : 10 ∉ header
  fields : ∃ objectName, fieldsOf header = [objectName, Bytes.ascii "blob", numeral item.content.length]

/-- A header line and the bytes of a file, and a newline. -/
def frame (header : Bytes) (item : FileData) : Bytes := header ++ 10 :: (item.content ++ [10])

def frames (headers : List Bytes) (files : List FileData) : Bytes := (List.zipWith frame headers files).flatten

/-- A response is exactly the frames of the files, in their order. -/
def Framed (files : List FileData) (raw : Bytes) : Prop :=
  ∃ headers, List.Forall₂ IsHeader files headers ∧ raw = frames headers files

/-- From a place on, a response has a header line with three fields, of which the last one
reads as a size, in whatever spelling; so far behind the line stands a newline, and the bytes
between are the file. A size that is negative leads back, or counts from the end. -/
structure Gives (raw : Bytes) (start : Nat) (item : FileData) (spelled : Bytes) (next : Nat) : Prop where
  gives : ∃ header after size place, raw.drop start = header ++ 10 :: after ∧ 10 ∉ header ∧
    (∃ objectName, fieldsOf header = [objectName, Bytes.ascii "blob", spelled]) ∧ intOf? spelled = some size ∧
    Slice.Points raw.length (start + header.length + 1 + size) place ∧ (start + header.length + 1 + size : Int) ≠ -1 ∧
    raw[place]? = some 10 ∧ (raw.take place).drop (start + header.length + 1) = item.content ∧ next = place + 1

/-- What a response gives of files, from one place to another, and how their sizes are spelled. -/
inductive GivesAll (raw : Bytes) : Nat → List FileData → List Bytes → Nat → Prop
  | nil {start : Nat} : GivesAll raw start [] [] start
  | cons {start middle next : Nat} {item : FileData} {spelled : Bytes} {files : List FileData} {spellings : List Bytes} :
      Gives raw start item spelled middle → GivesAll raw middle files spellings next →
        GivesAll raw start (item :: files) (spelled :: spellings) next

/-- The sizes of files, as they should be spelled. -/
def plainSizes (files : List FileData) : List Bytes := files.map fun item => numeral item.content.length

/-- The sizes in a response lead to its end, and one of them is not spelled as it should be. -/
def Misspelled (files : List FileData) (raw : Bytes) : Prop :=
  ∃ spellings, GivesAll raw 0 files spellings raw.length ∧ spellings ≠ plainSizes files

/-- A file has a size that has too many digits to be read. -/
def Oversized (files : List FileData) : Prop := ∃ item ∈ files, 10 ^ Json.maxDigits ≤ item.content.length

section
variable {size : Nat}

theorem numeral_eq (size : Nat) : numeral size = (Nat.toDigits 10 size).map fun c => UInt8.ofNat c.toNat := by
  rw [numeral, Bytes.ascii, shown, String.toList_ofList]

theorem digit_code {c : Char} (h : c ∈ Nat.toDigits 10 size) :
    (UInt8.ofNat c.toNat).toNat = c.toNat ∧ 48 ≤ c.toNat ∧ c.toNat ≤ 57 := by
  have hDigit := Nat.isDigit_of_mem_toDigits (by decide) (by decide) h
  simp only [Char.isDigit, Bool.and_eq_true, decide_eq_true_eq] at hDigit
  have hLow : 48 ≤ c.toNat := hDigit.1
  have hHigh : c.toNat ≤ 57 := hDigit.2
  exact ⟨by rw [UInt8.toNat_ofNat']; omega, hLow, hHigh⟩

theorem numeral_digits {byte : UInt8} (h : byte ∈ numeral size) : 48 ≤ byte.toNat ∧ byte.toNat ≤ 57 := by
  rw [numeral_eq] at h
  obtain ⟨c, hC, rfl⟩ := List.mem_map.mp h
  obtain ⟨hCode, hLow, hHigh⟩ := digit_code hC
  omega

theorem numeral_value (size : Nat) :
    (numeral size).foldl (fun number byte => 10 * number + (byte.toNat - 48)) 0 = size := by
  have hFold : ∀ (digits : List Char) (start : Nat), (∀ c ∈ digits, c ∈ Nat.toDigits 10 size) →
      (digits.map fun c => UInt8.ofNat c.toNat).foldl (fun number byte => 10 * number + (byte.toNat - 48)) start =
        Nat.ofDigitChars 10 digits start := by
    intro digits
    induction digits with
    | nil =>
        intro start _
        exact Nat.ofDigitChars_nil.symm
    | cons c rest ih =>
        intro start hDigits
        rw [List.map_cons, List.foldl_cons, Nat.ofDigitChars_cons, (digit_code (hDigits c List.mem_cons_self)).1]
        exact ih _ fun d hMem => hDigits d (List.mem_cons_of_mem _ hMem)
  rw [numeral_eq, hFold _ 0 fun _ hMem => hMem]
  exact Nat.ofDigitChars_ten_toDigits

theorem numeral_length_le_iff : (numeral size).length ≤ Json.maxDigits ↔ size < 10 ^ Json.maxDigits := by
  rw [numeral_eq, List.length_map]
  exact Nat.length_toDigits_le_iff (by decide) (by decide)

/-- A size in decimal digits is read, unless it has too many. -/
theorem intOf_numeral (size : Nat) :
    intOf? (numeral size) = if size < 10 ^ Json.maxDigits then some (size : Int) else none := by
  have hNone : (95 : UInt8) ∉ numeral size := by
    intro hMem
    have hDigit := numeral_digits hMem
    exact absurd hDigit.2 (by decide)
  have hNonempty : numeral size ≠ [] := by
    rw [numeral_eq]
    exact fun hNil => Nat.toDigits_ne_nil (List.map_eq_nil_iff.mp hNil)
  have hAll : (numeral size).all isDigitByte = true := by
    rw [List.all_eq_true]
    intro byte hMem
    have hDigit := numeral_digits hMem
    simp only [isDigitByte, Bool.and_eq_true, decide_eq_true_eq]
    exact hDigit
  have hDigits : digitsOf? (numeral size) = if size < 10 ^ Json.maxDigits then some size else none := by
    rw [digitsOf?]
    have hSplit : (numeral size).splitOn 95 = [numeral size] := by
      rw [List.splitOn_eq_splitOnP]
      refine List.splitOnP_eq_singleton ?_
      intro byte hMem
      exact beq_false_of_ne fun hSame => hNone (hSame ▸ hMem)
    simp only [hSplit, List.flatten_cons, List.flatten_nil, List.append_nil, hAll, numeral_length_le_iff, numeral_value]
    simp [hNonempty]
  obtain ⟨first, rest, hFirst⟩ := List.exists_cons_of_ne_nil hNonempty
  have hDigit : 48 ≤ first.toNat ∧ first.toNat ≤ 57 := @numeral_digits size first (hFirst ▸ List.mem_cons_self)
  rw [hFirst] at hDigits ⊢
  have hUnsigned : intOf? (first :: rest) = (digitsOf? (first :: rest)).map Int.ofNat := by
    unfold intOf?
    split
    · next hSame =>
        obtain ⟨rfl, _⟩ := List.cons.inj hSame
        exact absurd hDigit.1 (by decide)
    · next hSame =>
        obtain ⟨rfl, _⟩ := List.cons.inj hSame
        exact absurd hDigit.1 (by decide)
    · rfl
  rw [hUnsigned, hDigits]
  split <;> rfl

end

section
variable {raw : Bytes} {start next : Nat} {item : FileData} {spelled : Bytes}

theorem three_eq_some {fields : List Bytes} {first second third : Bytes} :
    three? fields = some (first, second, third) ↔ fields = [first, second, third] := by
  constructor
  · intro h
    unfold three? at h
    split at h
    · simpa using h
    · cases h
  · rintro rfl
    rfl

/-- The slice of a header line, up to its newline. -/
theorem slice_header {cursor : Int} {header after : Bytes} (points : Slice.Points raw.length cursor start)
    (hLine : raw.drop start = header ++ 10 :: after) :
    Slice.slice raw cursor ((start + header.length : Nat) : Int) = header ∧ start + header.length < raw.length := by
  have hLength := congrArg List.length hLine
  rw [List.length_drop, List.length_append, List.length_cons] at hLength
  have hEnd : start + header.length < raw.length := by omega
  refine ⟨?_, hEnd⟩
  rw [Slice.slice_points points (Or.inl ⟨rfl, hEnd.le⟩), List.drop_take, hLine, Nat.add_sub_cancel_left, List.take_left]

/-- What a turn of the loop accepts, where the cursor points. -/
theorem checkBlob_gives {cursor after : Int} (points : Slice.Points raw.length cursor start)
    (h : checkBlob raw cursor item = .ok after) :
    ∃ spelled next, Gives raw start item spelled next ∧ Slice.Points raw.length after next := by
  simp only [checkBlob, Except.bind_eq_ok_iff, Except.ofOption_eq_ok_iff, require_eq_ok, exists_const, Prod.exists,
    Except.pure_eq_ok_iff] at h
  obtain ⟨headerEnd, hFind, objectName, objectType, encodedSize, hFields, rfl, size, hSize, hNewline, hContent, rfl⟩ := h
  obtain ⟨header, more, hLine, hOneLine, rfl⟩ := Slice.find_iff.mp hFind
  rw [points.position] at hLine hFields hNewline hContent ⊢
  obtain ⟨hHeader, hEnd⟩ := slice_header points hLine
  rw [hHeader, three_eq_some] at hFields
  obtain ⟨place, hPlace, hLast, hByte⟩ := Slice.slice_one_iff.mp hNewline
  have hStart : Slice.Points raw.length (((start + header.length : Nat) : Int) + 1) (start + header.length + 1) :=
    Or.inl ⟨rfl, hEnd⟩
  rw [Slice.slice_points hStart hPlace] at hContent
  have hInside : place < raw.length := (List.getElem?_eq_some_iff.mp hByte).1
  rw [Nat.cast_add] at hPlace hLast ⊢
  exact ⟨encodedSize, place + 1, ⟨header, more, size, place, hLine, hOneLine, ⟨objectName, hFields⟩, hSize, hPlace,
    hLast, hByte, hContent, rfl⟩, hPlace.next hInside hLast⟩

theorem Gives.checkBlob {cursor : Int} (points : Slice.Points raw.length cursor start)
    (h : Gives raw start item spelled next) :
    ∃ after, checkBlob raw cursor item = .ok after ∧ Slice.Points raw.length after next := by
  obtain ⟨header, more, size, place, hLine, hOneLine, ⟨objectName, hFields⟩, hSize, hPlace, hLast, hByte, hContent, rfl⟩ :=
    h.gives
  obtain ⟨hHeader, hEnd⟩ := slice_header points hLine
  have hInside : place < raw.length := (List.getElem?_eq_some_iff.mp hByte).1
  have hStart : Slice.Points raw.length (((start + header.length : Nat) : Int) + 1) (start + header.length + 1) :=
    Or.inl ⟨rfl, hEnd⟩
  rw [← Nat.cast_add] at hPlace hLast
  have hFind : Slice.find raw 10 cursor = some (start + header.length) := by
    refine Slice.find_iff.mpr ⟨header, more, ?_, hOneLine, ?_⟩
    · rw [points.position]
      exact hLine
    · rw [points.position]
  refine ⟨_, ?_, hPlace.next hInside hLast⟩
  simp only [Inspection.checkBlob, Except.bind_eq_ok_iff, Except.ofOption_eq_ok_iff, require_eq_ok, exists_const,
    Prod.exists, Except.pure_eq_ok_iff]
  refine ⟨_, hFind, objectName, _, spelled, ?_, rfl, size, hSize, Slice.slice_one_iff.mpr ⟨place, hPlace, hLast, hByte⟩,
    ?_, rfl⟩
  · rw [hHeader, three_eq_some]
    exact hFields
  · rw [Slice.slice_points hStart hPlace]
    exact hContent

/-- What the loop accepts is what the response gives of the files. -/
theorem foldlM_checkBlob_iff {files : List FileData} {cursor : Int} (points : Slice.Points raw.length cursor start) :
    (∃ after, files.foldlM (checkBlob raw) cursor = .ok after ∧ Slice.Points raw.length after next) ↔
      ∃ spellings, GivesAll raw start files spellings next := by
  induction files generalizing start cursor with
  | nil =>
      constructor
      · rintro ⟨after, hAfter, hPoints⟩
        obtain rfl : cursor = after := Except.ok.inj hAfter
        refine ⟨[], ?_⟩
        have hSame : start = next := by rw [← points.position, ← hPoints.position]
        rw [hSame]
        exact .nil
      · rintro ⟨spellings, hAll⟩
        cases hAll
        exact ⟨cursor, rfl, points⟩
  | cons item files ih =>
      constructor
      · rintro ⟨after, hAfter, hPoints⟩
        rw [List.foldlM_cons, Except.bind_eq_ok_iff] at hAfter
        obtain ⟨middle, hMiddle, hAfter⟩ := hAfter
        obtain ⟨spelled, place, hGives, hPlace⟩ := checkBlob_gives points hMiddle
        obtain ⟨spellings, hAll⟩ := (ih hPlace).mp ⟨after, hAfter, hPoints⟩
        exact ⟨spelled :: spellings, .cons hGives hAll⟩
      · rintro ⟨spellings, hAll⟩
        cases hAll with
        | cons hGives hRest =>
            obtain ⟨middle, hMiddle, hPlace⟩ := hGives.checkBlob points
            obtain ⟨after, hAfter, hPoints⟩ := (ih hPlace).mpr ⟨_, hRest⟩
            refine ⟨after, ?_, hPoints⟩
            rw [List.foldlM_cons, hMiddle]
            exact hAfter

/-- `_verify_commit_blobs` returns when the sizes in the response lead to its end. -/
theorem verifyCommitBlobs_iff {git : Git} {snapshot : Snapshot} {artifactRelative : String}
    (hRaw : git.blobs (blobRequest artifactRelative snapshot.files) = .ok raw) :
    verifyCommitBlobs git snapshot artifactRelative = .ok () ↔
      ∃ spellings, GivesAll raw 0 snapshot.files spellings raw.length := by
  rw [← foldlM_checkBlob_iff (Slice.Points.zero raw.length)]
  simp only [verifyCommitBlobs, hRaw, Except.bind_eq_ok_iff, require_eq_ok, Except.ok.injEq, exists_eq_left']
  constructor
  · rintro ⟨cursor, hCursor, rfl⟩
    exact ⟨raw.length, hCursor, Or.inl ⟨rfl, le_refl _⟩⟩
  · rintro ⟨cursor, hCursor, points⟩
    exact ⟨cursor, hCursor, points.eq_length_iff.mpr rfl⟩

/-- A size that is read is that of the file, or negative. -/
theorem Gives.size_or_negative (h : Gives raw start item spelled next) :
    ∃ size, intOf? spelled = some size ∧ (size = item.content.length ∨ size < 0) := by
  obtain ⟨header, _, size, place, _, _, _, hSize, hPlace, _, hByte, hContent, _⟩ := h.gives
  refine ⟨size, hSize, ?_⟩
  by_cases hNegative : size < 0
  · exact Or.inr hNegative
  · left
    have hInside := (List.getElem?_eq_some_iff.mp hByte).1
    rw [← hContent, List.length_drop, List.length_take]
    rcases hPlace with ⟨hSame, _⟩ | ⟨hSame, _⟩ <;> omega

theorem frame_append (header : Bytes) (item : FileData) (rest : Bytes) :
    frame header item ++ rest = header ++ 10 :: (item.content ++ 10 :: rest) := by
  simp [frame]

theorem frame_length (header : Bytes) (item : FileData) :
    (frame header item).length = header.length + 1 + item.content.length + 1 := by
  simp only [frame, List.length_append, List.length_cons, List.length_nil]
  omega

/-- A cursor that does not count from the end. -/
theorem place_of_nonneg {length place count : Nat} (points : Slice.Points length count place) : place = count := by
  rcases points with ⟨hSame, _⟩ | ⟨hSame, hPlace⟩ <;> omega

/-- What is behind a header line, cut at a newline. -/
theorem drop_header {header after : Bytes} (hLine : raw.drop start = header ++ 10 :: after) :
    raw.drop (start + header.length + 1) = after := by
  have hDrop : (raw.drop start).drop (header.length + 1) = after := by
    rw [hLine, List.drop_length_add_append]
    rfl
  rwa [List.drop_drop, ← Nat.add_assoc] at hDrop

/-- A response that gives a file, with its size as it should be spelled, goes on with its frame. -/
theorem Gives.exists_frame (h : Gives raw start item (numeral item.content.length) next) :
    ∃ header, IsHeader item header ∧ raw.drop start = frame header item ++ raw.drop next := by
  obtain ⟨header, after, size, place, hLine, hOneLine, hFields, hSize, hPlace, -, hByte, hContent, rfl⟩ := h.gives
  rw [intOf_numeral] at hSize
  split at hSize
  · obtain rfl := Option.some.inj hSize
    have hSame : place = start + header.length + 1 + item.content.length := place_of_nonneg (by exact_mod_cast hPlace)
    subst hSame
    have hAfter := drop_header hLine
    refine ⟨header, ⟨hOneLine, hFields⟩, ?_⟩
    rw [List.drop_take, Nat.add_sub_cancel_left, hAfter] at hContent
    have hRest : after.drop item.content.length = 10 :: raw.drop (start + header.length + 1 + item.content.length + 1) := by
      obtain ⟨hInside, hTen⟩ := List.getElem?_eq_some_iff.mp hByte
      rw [← hAfter, List.drop_drop, List.drop_eq_getElem_cons hInside, hTen]
    have hSplit := List.take_append_drop item.content.length after
    rw [hContent] at hSplit
    rw [hLine, frame_append, ← hRest, hSplit]
  · cases hSize

section
variable {header rest : Bytes} (isHeader : IsHeader item header) (hRaw : raw.drop start = frame header item ++ rest)
include isHeader hRaw

/-- A frame gives its file, unless its size has too many digits. -/
theorem gives_frame (hSize : item.content.length < 10 ^ Json.maxDigits) :
    Gives raw start item (numeral item.content.length) (start + (frame header item).length) := by
  have hLine := hRaw
  rw [frame_append] at hLine
  have hAfter := drop_header hLine
  have hNewline : raw[start + header.length + 1 + item.content.length]? = some 10 := by
    rw [← List.getElem?_drop, hAfter]
    simp
  have hInside := (List.getElem?_eq_some_iff.mp hNewline).1
  refine ⟨header, _, item.content.length, start + header.length + 1 + item.content.length, hLine, isHeader.oneLine,
    isHeader.fields, ?_, Or.inl ⟨by push_cast; rfl, hInside.le⟩, by omega, hNewline, ?_, ?_⟩
  · rw [intOf_numeral, if_pos hSize]
  · rw [List.drop_take, Nat.add_sub_cancel_left, hAfter, List.take_left]
  · rw [frame_length]
    omega

/-- Where a frame of a file stands, nothing else is given of it. -/
theorem Gives.of_frame (h : Gives raw start item spelled next) :
    spelled = numeral item.content.length ∧ next = start + (frame header item).length ∧
      item.content.length < 10 ^ Json.maxDigits := by
  obtain ⟨other, after, size, place, hLine, hOneLine, ⟨objectName, hFields⟩, hSize, hPlace, _, _, _, rfl⟩ := h.gives
  rw [hRaw, frame_append] at hLine
  obtain ⟨rfl, rfl⟩ := Slice.cut_unique isHeader.oneLine hOneLine hLine
  obtain ⟨otherName, hHeader⟩ := isHeader.fields
  rw [hHeader] at hFields
  obtain ⟨_, hRest⟩ := List.cons.inj hFields
  obtain ⟨_, hLast⟩ := List.cons.inj hRest
  obtain ⟨rfl, _⟩ := List.cons.inj hLast
  rw [intOf_numeral] at hSize
  split at hSize
  · next hSmall =>
      obtain rfl := Option.some.inj hSize
      have hSame : place = start + header.length + 1 + item.content.length := place_of_nonneg (by exact_mod_cast hPlace)
      refine ⟨rfl, ?_, hSmall⟩
      rw [hSame, frame_length]
      omega
  · cases hSize

end

theorem GivesAll.exists_frames {files : List FileData} (h : GivesAll raw start files (plainSizes files) next) :
    ∃ headers, List.Forall₂ IsHeader files headers ∧ raw.drop start = frames headers files ++ raw.drop next := by
  induction files generalizing start with
  | nil =>
      cases h
      exact ⟨[], .nil, rfl⟩
  | cons item files ih =>
      cases h with
      | cons hGives hRest =>
          obtain ⟨header, isHeader, hFrame⟩ := hGives.exists_frame
          obtain ⟨headers, areHeaders, hFrames⟩ := ih hRest
          refine ⟨header :: headers, .cons isHeader areHeaders, ?_⟩
          rw [hFrame, hFrames, frames, frames, List.zipWith_cons_cons, List.flatten_cons, List.append_assoc]

section
variable {files : List FileData} {headers : List Bytes} (areHeaders : List.Forall₂ IsHeader files headers)
include areHeaders

theorem givesAll_frames {rest : Bytes} (hRaw : raw.drop start = frames headers files ++ rest) (hSizes : ¬ Oversized files) :
    GivesAll raw start files (plainSizes files) (start + (frames headers files).length) := by
  induction areHeaders generalizing start with
  | nil => exact .nil
  | @cons item header files headers isHeader areHeaders ih =>
      rw [frames, List.zipWith_cons_cons, List.flatten_cons] at hRaw ⊢
      rw [List.append_assoc] at hRaw
      have hSize : item.content.length < 10 ^ Json.maxDigits := by
        refine Nat.lt_of_not_le ?_
        intro hLarge
        exact hSizes ⟨item, List.mem_cons_self, hLarge⟩
      have hRest : raw.drop (start + (frame header item).length) = frames headers files ++ rest := by
        rw [← List.drop_drop, hRaw, List.drop_left]
        rfl
      have hAll := ih hRest fun ⟨other, hOther, hLarge⟩ => hSizes ⟨other, List.mem_cons_of_mem _ hOther, hLarge⟩
      rw [List.length_append, ← Nat.add_assoc]
      exact .cons (gives_frame isHeader hRaw hSize) hAll

/-- Where frames of the files stand, all sizes are spelled as they should be. -/
theorem GivesAll.of_frames {rest : Bytes} (hRaw : raw.drop start = frames headers files ++ rest) {spellings : List Bytes}
    (h : GivesAll raw start files spellings next) : spellings = plainSizes files ∧ ¬ Oversized files := by
  induction areHeaders generalizing start spellings with
  | nil =>
      cases h
      exact ⟨rfl, fun ⟨_, hMem, _⟩ => absurd hMem List.not_mem_nil⟩
  | @cons item header files headers isHeader areHeaders ih =>
      cases h with
      | cons hGives hAll =>
          rw [frames, List.zipWith_cons_cons, List.flatten_cons, List.append_assoc] at hRaw
          obtain ⟨rfl, rfl, hSize⟩ := hGives.of_frame isHeader hRaw
          have hRest : raw.drop (start + (frame header item).length) = frames headers files ++ rest := by
            rw [← List.drop_drop, hRaw, List.drop_left]
            rfl
          obtain ⟨rfl, hSizes⟩ := ih hRest hAll
          refine ⟨rfl, ?_⟩
          rintro ⟨other, hOther, hLarge⟩
          rcases List.mem_cons.mp hOther with rfl | hMem
          · exact absurd hLarge (Nat.not_le_of_lt hSize)
          · exact hSizes ⟨other, hMem, hLarge⟩

end

theorem GivesAll.framed {files : List FileData} (h : GivesAll raw 0 files (plainSizes files) raw.length) :
    Framed files raw := by
  obtain ⟨headers, areHeaders, hFrames⟩ := h.exists_frames
  refine ⟨headers, areHeaders, ?_⟩
  rwa [List.drop_length, List.append_nil] at hFrames

theorem Framed.givesAll {files : List FileData} (framed : Framed files raw) (hSizes : ¬ Oversized files) :
    GivesAll raw 0 files (plainSizes files) raw.length := by
  obtain ⟨headers, areHeaders, rfl⟩ := framed
  have hAll := @givesAll_frames (frames headers files) 0 files headers areHeaders []
    (by rw [List.drop_zero, List.append_nil]) hSizes
  rwa [Nat.zero_add] at hAll

/-- A framed response gives the files in no other way. -/
theorem Framed.spellings {files : List FileData} (framed : Framed files raw) {spellings : List Bytes}
    (h : GivesAll raw 0 files spellings next) : spellings = plainSizes files ∧ ¬ Oversized files := by
  obtain ⟨headers, areHeaders, hRaw⟩ := framed
  refine @GivesAll.of_frames raw 0 next files headers areHeaders [] ?_ spellings h
  rw [List.drop_zero, List.append_nil]
  exact hRaw

/-- The response is accepted exactly when it is framed, unless sizes that are not spelled as
they should be lead to its end, or a framed file has a size that cannot be read. -/
theorem verifyCommitBlobs_framed_iff {git : Git} {snapshot : Snapshot} {artifactRelative : String}
    (hRaw : git.blobs (blobRequest artifactRelative snapshot.files) = .ok raw) :
    (verifyCommitBlobs git snapshot artifactRelative = .ok () ↔ Framed snapshot.files raw) ↔
      ¬ Misspelled snapshot.files raw ∧ ¬ (Framed snapshot.files raw ∧ Oversized snapshot.files) := by
  rw [verifyCommitBlobs_iff hRaw]
  constructor
  · intro same
    constructor
    · rintro ⟨spellings, hAll, hOther⟩
      exact hOther ((same.mp ⟨spellings, hAll⟩).spellings hAll).1
    · rintro ⟨framed, hSizes⟩
      obtain ⟨spellings, hAll⟩ := same.mpr framed
      exact (framed.spellings hAll).2 hSizes
  · rintro ⟨hPlain, hReadable⟩
    constructor
    · rintro ⟨spellings, hAll⟩
      have hSame : spellings = plainSizes snapshot.files := by
        by_contra hOther
        exact hPlain ⟨spellings, hAll, hOther⟩
      subst hSame
      exact hAll.framed
    · intro framed
      exact ⟨_, framed.givesAll fun hSizes => hReadable ⟨framed, hSizes⟩⟩

end

namespace Sample

/-- A repository of which only the blobs are asked for. -/
def blobGit (raw : Bytes) : Git where
  topLevel := .ok root
  head := .ok ""
  tracked _ := .ok []
  blobs _ := .ok raw
  staged _ := .ok ""
  origin := .ok ""

def emptyFile : FileData := fileData Toolkit.standard.toPlatform "empty.txt" []

/-- The small skill, and an empty file beside it. -/
def twoFiles : Snapshot :=
  { snapshotOf Toolkit.standard.toPlatform ⟨"", "", ""⟩ skillText with
    files := [fileData Toolkit.standard.toPlatform "SKILL.md" (Bytes.utf8 skillText.toList), emptyFile] }

def skillFrame : Bytes := Bytes.ascii "ab01 blob 43" ++ 10 :: (Bytes.utf8 skillText.toList ++ [10])

/-- A response of which the last newline is cut off, with a size that leads to its end. -/
def truncatedResponse : Bytes := skillFrame ++ (Bytes.ascii "cd02 blob -1" ++ [10])

def exactResponse : Bytes := skillFrame ++ (Bytes.ascii "cd02 blob 0" ++ [10, 10])

theorem truncated_accepted : verifyCommitBlobs (blobGit truncatedResponse) twoFiles "." = .ok () := by
  rfl

theorem truncated_not_framed : ¬ Framed twoFiles.files truncatedResponse := by
  rintro ⟨headers, areHeaders, hRaw⟩
  cases areHeaders with
  | @cons _ header _ headers _ areHeaders =>
      cases areHeaders with
      | @cons _ other _ headers _ areHeaders =>
          cases areHeaders
          -- An empty file has two newlines at the end of its frame.
          have hEnds : (frames [header, other] twoFiles.files).reverse.take 2 = [10, 10] := by
            simp [frames, frame, twoFiles, emptyFile, fileData]
          rw [← hRaw] at hEnds
          exact absurd hEnds (by decide +kernel)

/-- Not every response that is accepted is framed. -/
theorem truncated_response_accepted : ¬ ∀ (git : Git) (snapshot : Snapshot) (artifactRelative : String) (raw : Bytes),
    git.blobs (blobRequest artifactRelative snapshot.files) = .ok raw →
      (verifyCommitBlobs git snapshot artifactRelative = .ok () ↔ Framed snapshot.files raw) := by
  intro exactly
  exact truncated_not_framed ((exactly (blobGit truncatedResponse) twoFiles "." truncatedResponse rfl).mp truncated_accepted)

theorem verifyCommitBlobs_framed_exact :
    verifyCommitBlobs (blobGit exactResponse) twoFiles "." = .ok () ∧
      ((verifyCommitBlobs (blobGit exactResponse) twoFiles "." = .ok () ↔ Framed twoFiles.files exactResponse) ↔
        ¬ Misspelled twoFiles.files exactResponse ∧
          ¬ (Framed twoFiles.files exactResponse ∧ Oversized twoFiles.files)) :=
  ⟨rfl, verifyCommitBlobs_framed_iff rfl⟩

end Sample

end Inspection

end VouchSpec
