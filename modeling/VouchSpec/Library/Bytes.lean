import Mathlib.Tactic.IntervalCases
import Mathlib.Data.List.Basic

/-! Byte strings: UTF-8, hexadecimal and base64 text, and the framing of a
label and its parts by NUL bytes. Each encoding is injective on what it is
used for. -/

abbrev Bytes := List UInt8

namespace Bytes

/-- UTF-8 encoding of a text. -/
def utf8 (characters : List Char) : Bytes :=
  characters.flatMap String.utf8EncodeChar

theorem utf8_injective : Function.Injective utf8 := by
  intro left right h
  have hEncoded : left.utf8Encode = right.utf8Encode := by
    simp only [List.utf8Encode]
    exact congrArg List.toByteArray h
  rw [← String.toByteArray_ofList, ← String.toByteArray_ofList, String.toByteArray_inj] at hEncoded
  exact String.ofList_injective hEncoded

theorem utf8_append (left right : List Char) : utf8 (left ++ right) = utf8 left ++ utf8 right := by
  simp [utf8]

/-- Text in the ASCII range takes one byte a character. -/
theorem utf8_length_of_ascii {characters : List Char} (h : ∀ c ∈ characters, c.toNat < 128) :
    (utf8 characters).length = characters.length := by
  induction characters with
  | nil => rfl
  | cons c rest ih =>
      have hCode : c.toNat ≤ 127 := Nat.le_of_lt_succ (h c (by simp))
      have hOne : (String.utf8EncodeChar c).length = 1 := by
        simp [String.utf8EncodeChar, hCode]
      have hRest := ih fun d hd => h d (List.mem_cons_of_mem _ hd)
      simp only [utf8, List.flatMap_cons, List.length_append, List.length_cons] at hRest ⊢
      omega

/-- Text in the ASCII range without a NUL has no zero byte. -/
theorem zero_not_mem_utf8 {characters : List Char}
    (h : characters.all (fun c => 1 ≤ c.toNat && c.toNat < 128) = true) : 0 ∉ utf8 characters := by
  intro hZero
  obtain ⟨c, hC, hByte⟩ := List.mem_flatMap.mp hZero
  have hRange := List.all_eq_true.mp h c hC
  simp only [Bool.and_eq_true, decide_eq_true_eq] at hRange
  have hCode : c.val.toNat ≤ 127 := Nat.le_of_lt_succ hRange.2
  have hSome : 1 ≤ c.val.toNat := hRange.1
  simp only [String.utf8EncodeChar, hCode, if_true, List.mem_singleton] at hByte
  have hNat := congrArg UInt8.toNat hByte
  simp at hNat
  omega

/-- One byte a character, for text that is ASCII. -/
def ascii (text : String) : Bytes := text.toList.map fun c => UInt8.ofNat c.toNat

def isAscii (text : String) : Bool := text.toList.all fun c => c.toNat < 128

theorem ascii_inj {left right : String} (hLeft : isAscii left) (hRight : isAscii right)
    (h : ascii left = ascii right) : left = right := by
  apply String.toList_inj.mp
  simp only [isAscii, List.all_eq_true, decide_eq_true_eq] at hLeft hRight
  unfold ascii at h
  generalize left.toList = first at h hLeft
  generalize right.toList = second at h hRight
  induction first generalizing second with
  | nil => simpa using h.symm
  | cons c rest ih =>
      cases second with
      | nil => simp at h
      | cons d other =>
          simp only [List.map_cons, List.cons.injEq] at h
          have hc := hLeft c (by simp)
          have hd := hRight d (by simp)
          have hCode := congrArg UInt8.toNat h.1
          simp only [UInt8.toNat_ofNat'] at hCode
          have hSame : c.toNat = d.toNat := by omega
          have hChar : c = d := by
            rw [← Char.ofNat_toNat c, ← Char.ofNat_toNat d, hSame]
          rw [hChar, ih (fun e he => hLeft e (List.mem_cons_of_mem _ he)) other h.2
            (fun e he => hRight e (List.mem_cons_of_mem _ he))]

def hexDigit (value : Nat) : Char :=
  if value < 10 then Char.ofNat (48 + value) else Char.ofNat (87 + value)

/-- Two lowercase hexadecimal digits a byte. -/
def hex (bytes : Bytes) : List Char :=
  bytes.flatMap fun byte => [hexDigit (byte.toNat / 16), hexDigit (byte.toNat % 16)]

@[simp] theorem hex_length (bytes : Bytes) : (hex bytes).length = 2 * bytes.length := by
  induction bytes with
  | nil => rfl
  | cons byte rest ih =>
      simp only [hex, List.flatMap_cons, List.length_append, List.length_cons, List.length_nil] at ih ⊢
      omega

def isHexDigit (c : Char) : Bool :=
  (48 ≤ c.toNat && c.toNat ≤ 57) || (97 ≤ c.toNat && c.toNat ≤ 102)

theorem hexDigit_isHexDigit {value : Nat} (h : value < 16) : isHexDigit (hexDigit value) = true := by
  interval_cases value <;> rfl

theorem hex_isHexDigit (bytes : Bytes) : ∀ c ∈ hex bytes, isHexDigit c = true := by
  intro c h
  simp only [hex, List.mem_flatMap, List.mem_cons, List.not_mem_nil, or_false] at h
  obtain ⟨byte, _, rfl | rfl⟩ := h
  · exact hexDigit_isHexDigit (by have := byte.toNat_lt; omega)
  · exact hexDigit_isHexDigit (Nat.mod_lt _ (by decide))

/-- The six-bit groups of a byte string, the last one padded with zero bits. -/
def sextets : Bytes → List Nat
  | [] => []
  | [a] => [a.toNat / 4, a.toNat % 4 * 16]
  | [a, b] => [a.toNat / 4, a.toNat % 4 * 16 + b.toNat / 16, b.toNat % 16 * 4]
  | a :: b :: c :: rest =>
      a.toNat / 4 :: (a.toNat % 4 * 16 + b.toNat / 16) :: (b.toNat % 16 * 4 + c.toNat / 64) ::
        c.toNat % 64 :: sextets rest

theorem sextets_length (bytes : Bytes) : (sextets bytes).length = (4 * bytes.length + 2) / 3 := by
  induction bytes using sextets.induct with
  | case1 => rfl
  | case2 a => simp [sextets]
  | case3 a b => simp [sextets]
  | case4 a b c rest ih =>
      simp only [sextets, List.length_cons, ih]
      omega

theorem sextets_lt (bytes : Bytes) : ∀ value ∈ sextets bytes, value < 64 := by
  induction bytes using sextets.induct with
  | case1 => simp [sextets]
  | case2 a =>
      have := a.toNat_lt
      simp only [sextets, List.mem_cons, List.not_mem_nil, or_false]
      omega
  | case3 a b =>
      have := a.toNat_lt
      have := b.toNat_lt
      simp only [sextets, List.mem_cons, List.not_mem_nil, or_false]
      omega
  | case4 a b c rest ih =>
      have := a.toNat_lt
      have := b.toNat_lt
      have := c.toNat_lt
      intro value h
      simp only [sextets, List.mem_cons] at h
      rcases h with h | h | h | h | h
      · omega
      · omega
      · omega
      · omega
      · exact ih value h

private theorem byte_eq {left right : UInt8} (h : left.toNat = right.toNat) : left = right :=
  UInt8.toNat_inj.mp h

/-- The groups of byte strings of one length determine the bytes. -/
theorem sextets_inj {left right : Bytes} (hLength : left.length = right.length)
    (h : sextets left = sextets right) : left = right := by
  induction left using sextets.induct generalizing right with
  | case1 =>
      exact (List.length_eq_zero_iff.mp hLength.symm).symm
  | case2 a =>
      match right, hLength with
      | [b], _ =>
          simp only [sextets, List.cons.injEq, and_true] at h
          rw [byte_eq (by omega : a.toNat = b.toNat)]
  | case3 a b =>
      match right, hLength with
      | [c, d], _ =>
          have := b.toNat_lt
          have := d.toNat_lt
          simp only [sextets, List.cons.injEq, and_true] at h
          rw [byte_eq (by omega : a.toNat = c.toNat), byte_eq (by omega : b.toNat = d.toNat)]
  | case4 a b c rest ih =>
      match right, hLength with
      | d :: e :: f :: other, hLength =>
          have := b.toNat_lt
          have := e.toNat_lt
          have := c.toNat_lt
          have := f.toNat_lt
          simp only [sextets, List.cons.injEq] at h
          obtain ⟨h1, h2, h3, h4, hRest⟩ := h
          rw [byte_eq (by omega : a.toNat = d.toNat), byte_eq (by omega : b.toNat = e.toNat),
            byte_eq (by omega : c.toNat = f.toNat), ih (by simpa using hLength) hRest]

/-- The base64 alphabet with its last two characters given. -/
def base64Char (char62 char63 : Char) (value : Nat) : Char :=
  if value < 26 then Char.ofNat (65 + value)
  else if value < 52 then Char.ofNat (71 + value)
  else if value < 62 then Char.ofNat (value - 4)
  else if value = 62 then char62 else char63

/-- Standard base64 with padding. -/
def base64 (bytes : Bytes) : List Char :=
  (sextets bytes).map (base64Char '+' '/') ++
    List.replicate ((3 - bytes.length % 3) % 3) '='

theorem base64_length (bytes : Bytes) : (base64 bytes).length = 4 * ((bytes.length + 2) / 3) := by
  simp only [base64, List.length_append, List.length_map, sextets_length, List.length_replicate]
  omega

/-- URL-safe base64 without padding. -/
def base64Url (bytes : Bytes) : List Char :=
  (sextets bytes).map (base64Char '-' '_')

theorem base64Url_length (bytes : Bytes) :
    (base64Url bytes).length = (4 * bytes.length + 2) / 3 := by
  simp [base64Url, sextets_length]

private def base64UrlValue (c : Char) : Nat :=
  if c.toNat = 45 then 62
  else if c.toNat = 95 then 63
  else if c.toNat < 58 then c.toNat + 4
  else if c.toNat < 91 then c.toNat - 65
  else c.toNat - 71

private theorem base64UrlValue_char {value : Nat} (h : value < 64) :
    base64UrlValue (base64Char '-' '_' value) = value := by
  interval_cases value <;> rfl

theorem base64Url_inj {left right : Bytes} (hLength : left.length = right.length)
    (h : base64Url left = base64Url right) : left = right := by
  apply sextets_inj hLength
  have hValues := congrArg (List.map base64UrlValue) h
  simp only [base64Url, List.map_map] at hValues
  have hSelf : ∀ bytes : Bytes,
      (sextets bytes).map (base64UrlValue ∘ base64Char '-' '_') = sextets bytes := by
    intro bytes
    conv_rhs => rw [← List.map_id (sextets bytes)]
    exact List.map_congr_left fun value hv => base64UrlValue_char (sextets_lt bytes value hv)
  rwa [hSelf, hSelf] at hValues

/-- Letters, digits, hyphen and underscore. -/
def isUrlSafe (c : Char) : Bool :=
  (65 ≤ c.toNat && c.toNat ≤ 90) || (97 ≤ c.toNat && c.toNat ≤ 122) ||
    (48 ≤ c.toNat && c.toNat ≤ 57) || c.toNat = 45 || c.toNat = 95

theorem base64Url_isUrlSafe (bytes : Bytes) : ∀ c ∈ base64Url bytes, isUrlSafe c = true := by
  intro c h
  obtain ⟨value, hValue, rfl⟩ := List.mem_map.mp h
  have hLt := sextets_lt bytes value hValue
  interval_cases value <;> rfl

theorem base64_ascii (bytes : Bytes) : ∀ c ∈ base64 bytes, c.toNat < 128 := by
  intro c h
  rcases List.mem_append.mp h with h | h
  · obtain ⟨value, hValue, rfl⟩ := List.mem_map.mp h
    have hLt := sextets_lt bytes value hValue
    interval_cases value <;> decide
  · rw [(List.mem_replicate.mp h).2]
    decide

/-- Parts joined by NUL bytes. -/
def join : List Bytes → Bytes
  | [] => []
  | [part] => part
  | part :: rest => part ++ 0 :: join rest

/-- A label, a NUL byte and the joined parts. -/
def frame (label : Bytes) (parts : List Bytes) : Bytes := label ++ 0 :: join parts

def NulFree (bytes : Bytes) : Prop := (0 : UInt8) ∉ bytes

/-- Up to the first separator two equal strings agree. -/
theorem cut_inj {separator : UInt8} {left right x y : Bytes} (hLeft : separator ∉ left)
    (hRight : separator ∉ right) (h : left ++ separator :: x = right ++ separator :: y) :
    left = right ∧ x = y := by
  induction left generalizing right with
  | nil =>
      cases right with
      | nil => simpa using h
      | cons b rest =>
          simp only [List.nil_append, List.cons_append, List.cons.injEq] at h
          exact absurd (h.1 ▸ List.mem_cons_self) hRight
  | cons b rest ih =>
      cases right with
      | nil =>
          simp only [List.nil_append, List.cons_append, List.cons.injEq] at h
          exact absurd (h.1 ▸ List.mem_cons_self) hLeft
      | cons c other =>
          simp only [List.cons_append, List.cons.injEq] at h
          obtain ⟨hRest, hEnd⟩ := ih (fun hm => hLeft (List.mem_cons_of_mem _ hm))
            (fun hm => hRight (List.mem_cons_of_mem _ hm)) h.2
          exact ⟨by rw [h.1, hRest], hEnd⟩

private theorem join_cons_cons (part next : Bytes) (rest : List Bytes) :
    join (part :: next :: rest) = part ++ 0 :: join (next :: rest) := rfl

/-- Joining NUL-free parts loses nothing, not even their number. -/
theorem join_inj {left right : List Bytes} (hLeft : left ≠ []) (hRight : right ≠ [])
    (hLeftFree : ∀ part ∈ left, NulFree part) (hRightFree : ∀ part ∈ right, NulFree part)
    (h : join left = join right) : left = right := by
  induction left generalizing right with
  | nil => exact absurd rfl hLeft
  | cons part rest ih =>
      match rest, right, hRight with
      | [], [other], _ => rw [show part = other from h]
      | [], other :: next :: more, _ =>
          have hFree := hLeftFree part (by simp)
          rw [join_cons_cons] at h
          exact absurd (by rw [show part = _ from h]; simp) hFree
      | next :: rest, [other], _ =>
          have hFree := hRightFree other (by simp)
          rw [join_cons_cons] at h
          exact absurd (by rw [show other = _ from h.symm]; simp) hFree
      | next :: rest, other :: following :: more, _ =>
          rw [join_cons_cons, join_cons_cons] at h
          obtain ⟨hPart, hTail⟩ := cut_inj (hLeftFree part (by simp)) (hRightFree other (by simp)) h
          have hRest := @ih (following :: more) (by simp) (by simp)
            (fun p hp => hLeftFree p (List.mem_cons_of_mem _ hp))
            (fun p hp => hRightFree p (List.mem_cons_of_mem _ hp)) hTail
          rw [hPart, hRest]

/-- A frame determines its label and its parts. -/
theorem frame_inj {label other : Bytes} {left right : List Bytes} (hLabel : NulFree label)
    (hOther : NulFree other) (hLeft : left ≠ []) (hRight : right ≠ [])
    (hLeftFree : ∀ part ∈ left, NulFree part) (hRightFree : ∀ part ∈ right, NulFree part)
    (h : frame label left = frame other right) : label = other ∧ left = right := by
  obtain ⟨hSame, hParts⟩ := cut_inj hLabel hOther h
  exact ⟨hSame, join_inj hLeft hRight hLeftFree hRightFree hParts⟩

end Bytes
