import VouchSpec.Library.Bytes
import VouchSpec.Library.Json

/-! A strict reader of JSON texts: one value between blanks, no member named
twice, no number that is not an integer. It reads back what the compact writer
writes, also when characters outside ASCII are spelled as escapes. -/

namespace Json

/-- The decimal digits that an integer may have. -/
def maxDigits : Nat := 4300

/-- A value of bounded depth, without duplicate names or overlong integers. -/
def Plain : Nat → Json → Prop
  | _, null => True
  | _, bool _ => True
  | _, int value => value.natAbs < 10 ^ maxDigits
  | _, str _ => True
  | 0, _ => False
  | depth + 1, arr items => ∀ item ∈ items, item.Plain depth
  | depth + 1, obj members =>
      (members.map Prod.fst).Nodup ∧ ∀ member ∈ members, member.2.Plain depth

@[simp] theorem plain_null (depth : Nat) : null.Plain depth := by
  cases depth <;> trivial

@[simp] theorem plain_bool (depth : Nat) (value : Bool) : (bool value).Plain depth := by
  cases depth <;> trivial

@[simp] theorem plain_int (depth : Nat) (value : Int) :
    (int value).Plain depth ↔ value.natAbs < 10 ^ maxDigits := by
  cases depth <;> rfl

@[simp] theorem plain_str (depth : Nat) (value : String) : (str value).Plain depth := by
  cases depth <;> trivial

@[simp] theorem plain_arr (depth : Nat) (items : List Json) :
    (arr items).Plain (depth + 1) ↔ ∀ item ∈ items, item.Plain depth := Iff.rfl

@[simp] theorem plain_obj (depth : Nat) (members : List (String × Json)) :
    (obj members).Plain (depth + 1) ↔
      (members.map Prod.fst).Nodup ∧ ∀ member ∈ members, member.2.Plain depth := Iff.rfl

theorem not_plain_arr (items : List Json) : ¬(arr items).Plain 0 := id

theorem not_plain_obj (members : List (String × Json)) : ¬(obj members).Plain 0 := id

theorem Plain.succ {value : Json} {depth : Nat} (hPlain : value.Plain depth) : value.Plain (depth + 1) := by
  induction depth generalizing value with
  | zero =>
      cases value with
      | arr items => exact absurd hPlain (not_plain_arr items)
      | obj members => exact absurd hPlain (not_plain_obj members)
      | int number => simpa using hPlain
      | _ => simp
  | succ depth ih =>
      cases value with
      | arr items => exact fun item hItem => ih (hPlain item hItem)
      | obj members => exact ⟨hPlain.1, fun member hMember => ih (hPlain.2 member hMember)⟩
      | int number => simpa using hPlain
      | _ => simp

def isBlank (c : Char) : Bool := c.toNat = 32 || c.toNat = 9 || c.toNat = 10 || c.toNat = 13

def skipBlanks (characters : List Char) : List Char := characters.dropWhile isBlank

def hexValue? (c : Char) : Option Nat :=
  if 48 ≤ c.toNat ∧ c.toNat ≤ 57 then some (c.toNat - 48)
  else if 97 ≤ c.toNat ∧ c.toNat ≤ 102 then some (c.toNat - 87)
  else if 65 ≤ c.toNat ∧ c.toNat ≤ 70 then some (c.toNat - 55)
  else none

/-- Four hexadecimal digits. -/
def readHex : List Char → Option (Nat × List Char)
  | a :: b :: c :: d :: rest => do
      return (4096 * (← hexValue? a) + 256 * (← hexValue? b) + 16 * (← hexValue? c) + (← hexValue? d), rest)
  | _ => none

/-- The second half of a surrogate pair. -/
def readLow (high : Nat) : List Char → Option (Char × List Char)
  | slash :: letter :: rest =>
      if slash = backslash ∧ letter = 'u' then do
        let (low, rest) ← readHex rest
        if 0xDC00 ≤ low ∧ low < 0xE000 then
          some (Char.ofNat (0x10000 + 1024 * (high - 0xD800) + (low - 0xDC00)), rest)
        else none
      else none
  | _ => none

/-- A character by its code; lone surrogates are none. -/
def readCode (characters : List Char) : Option (Char × List Char) := do
  let (code, rest) ← readHex characters
  if 0xD800 ≤ code ∧ code < 0xDC00 then readLow code rest
  else if 0xDC00 ≤ code ∧ code < 0xE000 then none
  else some (Char.ofNat code, rest)

/-- What follows a backslash. -/
def readEscape : List Char → Option (Char × List Char)
  | [] => none
  | letter :: rest =>
      match letter.toNat with
      | 34 => some (quote, rest)
      | 92 => some (backslash, rest)
      | 47 => some ('/', rest)
      | 98 => some (Char.ofNat 8, rest)
      | 102 => some (Char.ofNat 12, rest)
      | 110 => some (Char.ofNat 10, rest)
      | 114 => some (Char.ofNat 13, rest)
      | 116 => some (Char.ofNat 9, rest)
      | 117 => readCode rest
      | _ => none

/-- One character of a string; control characters must be escaped. -/
def readChar : List Char → Option (Char × List Char)
  | [] => none
  | first :: rest =>
      if first = backslash then readEscape rest
      else if first.toNat < 32 then none
      else some (first, rest)

/-- The characters of a string after its opening quote. -/
def readString : Nat → List Char → Option (List Char × List Char)
  | 0, _ => none
  | fuel + 1, characters =>
      if characters.head? = some quote then some ([], characters.tail)
      else do
        let (c, rest) ← readChar characters
        let (more, rest) ← readString fuel rest
        return (c :: more, rest)

def readDigits (characters : List Char) : Option (Nat × List Char) :=
  let digits := characters.takeWhile Char.isDigit
  if digits = [] ∨ (1 < digits.length ∧ digits.head? = some '0') ∨ maxDigits < digits.length then none
  else some (Nat.ofDigitChars 10 digits 0, characters.dropWhile Char.isDigit)

def readInt : List Char → Option (Int × List Char)
  | [] => none
  | first :: rest =>
      if first = '-' then do
        let (value, rest) ← readDigits rest
        return (-(value : Int), rest)
      else do
        let (value, rest) ← readDigits (first :: rest)
        return ((value : Int), rest)

/-- The rest of a keyword. -/
def readWord (word : List Char) (value : Json) (characters : List Char) : Option (Json × List Char) :=
  if word.isPrefixOf characters then some (value, characters.drop word.length) else none

mutual
def readValue : Nat → List Char → Option (Json × List Char)
  | 0, _ => none
  | fuel + 1, characters =>
      match skipBlanks characters with
      | [] => none
      | first :: rest =>
          match first.toNat with
          | 110 => readWord "ull".toList null rest
          | 116 => readWord "rue".toList (bool true) rest
          | 102 => readWord "alse".toList (bool false) rest
          | 34 => do
              let (value, rest) ← readString (rest.length + 1) rest
              return (str (String.ofList value), rest)
          | 91 =>
              if (skipBlanks rest).head? = some ']' then some (arr [], (skipBlanks rest).tail)
              else do
                let (items, rest) ← readItems fuel rest
                return (arr items, rest)
          | 123 =>
              if (skipBlanks rest).head? = some (Char.ofNat 125) then
                some (obj [], (skipBlanks rest).tail)
              else do
                let (members, rest) ← readMembers fuel rest
                return (obj members, rest)
          | _ => do
              let (value, rest) ← readInt (first :: rest)
              return (int value, rest)

def readItems : Nat → List Char → Option (List Json × List Char)
  | 0, _ => none
  | fuel + 1, characters => do
      let (item, rest) ← readValue fuel characters
      match skipBlanks rest with
      | [] => none
      | first :: rest =>
          if first = ']' then some ([item], rest)
          else if first = ',' then do
            let (items, rest) ← readItems fuel rest
            return (item :: items, rest)
          else none

def readMembers : Nat → List Char → Option (List (String × Json) × List Char)
  | 0, _ => none
  | fuel + 1, characters =>
      match skipBlanks characters with
      | [] => none
      | first :: rest =>
          if first = quote then do
            let (name, rest) ← readString (rest.length + 1) rest
            if (skipBlanks rest).head? = some ':' then do
              let (value, rest) ← readValue fuel (skipBlanks rest).tail
              match skipBlanks rest with
              | [] => none
              | first :: rest =>
                  if first = Char.ofNat 125 then some ([(String.ofList name, value)], rest)
                  else if first = ',' then do
                    let (members, rest) ← readMembers fuel rest
                    if String.ofList name ∈ members.map Prod.fst then none
                    else return ((String.ofList name, value) :: members, rest)
                  else none
            else none
          else none
end

/-- One value with nothing but blanks around it. -/
def readText (characters : List Char) : Option Json := do
  let (value, rest) ← readValue (characters.length + 1) characters
  if skipBlanks rest = [] then some value else none

/-- A sixteen-bit code as an escape. -/
def codeEscape (code : Nat) : List Char :=
  [backslash, 'u', Bytes.hexDigit (code / 4096), Bytes.hexDigit (code / 256 % 16),
    Bytes.hexDigit (code / 16 % 16), Bytes.hexDigit (code % 16)]

/-- Characters outside printable ASCII by their codes, as `ensure_ascii` spells them. -/
def asciiEscape (c : Char) : List Char :=
  if c.toNat < 127 then [c]
  else if c.toNat < 0x10000 then codeEscape c.toNat
  else codeEscape (0xD800 + (c.toNat - 0x10000) / 1024) ++
    codeEscape (0xDC00 + (c.toNat - 0x10000) % 1024)

/-- The compact text in ASCII. -/
def asciiText (value : Json) : List Char := value.text.flatMap asciiEscape

/-- A spelling that keeps printable ASCII and that the reader undoes. -/
structure Spelling (spell : Char → List Char) : Prop where
  same : ∀ c, c.toNat < 127 → spell c = [c]
  read : ∀ c rest, 127 ≤ c.toNat → readChar (spell c ++ rest) = some (c, rest)
  head : ∀ c, 127 ≤ c.toNat → ∃ first more, spell c = first :: more ∧ first ≠ quote

theorem spelling_self : Spelling fun c => [c] where
  same _ _ := rfl
  read c rest hCode := by
    have hSlash : c ≠ backslash := by
      rintro rfl
      exact absurd hCode (by decide)
    have hControl : ¬c.toNat < 32 := by omega
    simp [readChar, hSlash, hControl]
  head c hCode := by
    refine ⟨c, [], rfl, ?_⟩
    rintro rfl
    exact absurd hCode (by decide)

private theorem hexValue_hexDigit {value : Nat} (h : value < 16) :
    hexValue? (Bytes.hexDigit value) = some value := by
  interval_cases value <;> rfl

private theorem readHex_digits {code : Nat} (h : code < 0x10000) (rest : List Char) :
    readHex ((codeEscape code).tail.tail ++ rest) = some (code, rest) := by
  have hSum : 4096 * (code / 4096) + 256 * (code / 256 % 16) + 16 * (code / 16 % 16) + code % 16 = code := by
    omega
  simp only [codeEscape, List.tail_cons, List.cons_append, List.nil_append, readHex,
    hexValue_hexDigit (show code / 4096 < 16 by omega),
    hexValue_hexDigit (show code / 256 % 16 < 16 by omega),
    hexValue_hexDigit (show code / 16 % 16 < 16 by omega),
    hexValue_hexDigit (show code % 16 < 16 by omega), bind, Option.bind, pure, hSum]

private theorem readChar_codeEscape (code : Nat) (rest : List Char) :
    readChar (codeEscape code ++ rest) = readCode ((codeEscape code).tail.tail ++ rest) := rfl

private theorem readLow_codeEscape (high code : Nat) (rest : List Char) :
    readLow high (codeEscape code ++ rest) = (readHex ((codeEscape code).tail.tail ++ rest)).bind fun found =>
      if 0xDC00 ≤ found.1 ∧ found.1 < 0xE000 then
        some (Char.ofNat (0x10000 + 1024 * (high - 0xD800) + (found.1 - 0xDC00)), found.2)
      else none := by
  simp only [codeEscape, List.cons_append, List.nil_append, readLow, and_self, if_true, List.tail_cons, bind]

theorem char_code (c : Char) : c.toNat < 0xD800 ∨ 0xE000 ≤ c.toNat ∧ c.toNat < 0x110000 := by
  rcases c.valid with h | ⟨h, hMax⟩
  · exact Or.inl h
  · have hLow : 0xDFFF < c.toNat := h
    exact Or.inr ⟨by omega, hMax⟩

private theorem readChar_unit {c : Char} (hUnit : c.toNat < 0x10000) (rest : List Char) :
    readChar (codeEscape c.toNat ++ rest) = some (c, rest) := by
  have hCode := char_code c
  have hHigh : ¬(0xD800 ≤ c.toNat ∧ c.toNat < 0xDC00) := by omega
  have hLow : ¬(0xDC00 ≤ c.toNat ∧ c.toNat < 0xE000) := by omega
  rw [readChar_codeEscape, readCode, readHex_digits hUnit]
  simp only [bind, Option.bind, if_neg hHigh, if_neg hLow, Char.ofNat_toNat]

private theorem readChar_pair {high low : Nat} (hHigh : 0xD800 ≤ high ∧ high < 0xDC00)
    (hLow : 0xDC00 ≤ low ∧ low < 0xE000) (rest : List Char) :
    readChar (codeEscape high ++ (codeEscape low ++ rest)) =
      some (Char.ofNat (0x10000 + 1024 * (high - 0xD800) + (low - 0xDC00)), rest) := by
  have hFirst : high < 0x10000 := by omega
  have hSecond : low < 0x10000 := by omega
  rw [readChar_codeEscape, readCode, readHex_digits hFirst]
  simp only [bind, Option.bind, if_pos hHigh]
  rw [readLow_codeEscape, readHex_digits hSecond, Option.bind_some, if_pos hLow]

theorem spelling_ascii : Spelling asciiEscape where
  same c hCode := by simp [asciiEscape, hCode]
  read c rest hCode := by
    have hNot : ¬c.toNat < 127 := by omega
    by_cases hUnit : c.toNat < 0x10000
    · rw [asciiEscape, if_neg hNot, if_pos hUnit]
      exact readChar_unit hUnit rest
    · rw [asciiEscape, if_neg hNot, if_neg hUnit, List.append_assoc]
      have hCode := char_code c
      have hSum : ∀ high low, high = 0xD800 + (c.toNat - 0x10000) / 1024 →
          low = 0xDC00 + (c.toNat - 0x10000) % 1024 →
          (0xD800 ≤ high ∧ high < 0xDC00) ∧ (0xDC00 ≤ low ∧ low < 0xE000) ∧
            0x10000 + 1024 * (high - 0xD800) + (low - 0xDC00) = c.toNat := by omega
      obtain ⟨hHigh, hLow, hTotal⟩ := hSum _ _ rfl rfl
      rw [readChar_pair hHigh hLow, hTotal, Char.ofNat_toNat]
  head c hCode := by
    have hNot : ¬c.toNat < 127 := by omega
    rw [asciiEscape, if_neg hNot]
    split
    · exact ⟨_, _, rfl, by decide⟩
    · exact ⟨_, _, rfl, by decide⟩

section
variable {spell : Char → List Char} (spelling : Spelling spell)
include spelling

theorem Spelling.ascii {characters : List Char} (hAscii : ∀ c ∈ characters, c.toNat < 127) :
    characters.flatMap spell = characters := by
  induction characters with
  | nil => rfl
  | cons c rest ih =>
      rw [List.flatMap_cons, spelling.same c (hAscii c (by simp)),
        ih fun d hd => hAscii d (List.mem_cons_of_mem _ hd)]
      rfl

theorem spelled_cons {c : Char} (hCode : c.toNat < 127) (characters rest : List Char) :
    (c :: characters).flatMap spell ++ rest = c :: (characters.flatMap spell ++ rest) := by
  rw [List.flatMap_cons, spelling.same c hCode]
  rfl

theorem readChar_spelled (c : Char) (rest : List Char) :
    readChar ((escapeChar c).flatMap spell ++ rest) = some (c, rest) := by
  have hChar : c = Char.ofNat c.toNat := (Char.ofNat_toNat c).symm
  by_cases hSpecial : c.toNat < 32 ∨ c.toNat = 34 ∨ c.toNat = 92
  · have hEscape : (escapeChar c).all (fun d => decide (d.toNat < 127)) = true ∧
        readChar (escapeChar c ++ rest) = some (c, rest) := by
      generalize c.toNat = code at hChar hSpecial
      subst hChar
      rcases hSpecial with hControl | rfl | rfl
      · interval_cases code <;> exact ⟨rfl, rfl⟩
      · exact ⟨rfl, rfl⟩
      · exact ⟨rfl, rfl⟩
    have hAscii : ∀ d ∈ escapeChar c, d.toNat < 127 := by
      simpa only [List.all_eq_true, decide_eq_true_eq] using hEscape.1
    rw [spelling.ascii hAscii]
    exact hEscape.2
  · have hCode : escapeChar c = [c] := by
      unfold escapeChar
      split <;> first | omega | simp_all
    rw [hCode, List.flatMap_singleton]
    by_cases hPlain : c.toNat < 127
    · have hSlash : c ≠ backslash := by
        rintro rfl
        exact hSpecial (by decide)
      have hControl : ¬c.toNat < 32 := by omega
      simp [spelling.same c hPlain, readChar, hSlash, hControl]
    · exact spelling.read c rest (by omega)

theorem spelled_head (c : Char) :
    ∃ first more, (escapeChar c).flatMap spell = first :: more ∧ first ≠ quote := by
  obtain ⟨first, more, hEscape, hFirst⟩ := escapeChar_head c
  rw [hEscape, List.flatMap_cons]
  by_cases hPlain : first.toNat < 127
  · rw [spelling.same first hPlain]
    exact ⟨first, _, rfl, hFirst⟩
  · obtain ⟨head, tail, hSpell, hHead⟩ := spelling.head first (by omega)
    rw [hSpell]
    exact ⟨head, _, rfl, hHead⟩

theorem readString_spelled (characters : List Char) (rest : List Char) :
    ∀ fuel, characters.length < fuel →
      readString fuel ((characters.flatMap escapeChar).flatMap spell ++ quote :: rest) =
        some (characters, rest) := by
  induction characters with
  | nil =>
      intro fuel hFuel
      cases fuel with
      | zero => exact absurd hFuel (by simp)
      | succ fuel => simp [readString]
  | cons c more ih =>
      intro fuel hFuel
      cases fuel with
      | zero => exact absurd hFuel (by simp)
      | succ fuel =>
          obtain ⟨first, tail, hHead, hFirst⟩ := spelled_head spelling c
          have hNot : ((escapeChar c).flatMap spell ++
              ((more.flatMap escapeChar).flatMap spell ++ quote :: rest)).head? ≠ some quote := by
            rw [hHead]
            simpa using hFirst
          rw [List.flatMap_cons, List.flatMap_append, List.append_assoc, readString, if_neg hNot,
            readChar_spelled spelling c]
          simp only [bind, Option.bind, ih fuel (by simpa using hFuel), pure]

theorem length_le_spelled (characters : List Char) :
    characters.length ≤ ((characters.flatMap escapeChar).flatMap spell).length := by
  induction characters with
  | nil => simp
  | cons c rest ih =>
      obtain ⟨first, more, hHead, -⟩ := spelled_head spelling c
      rw [List.flatMap_cons, List.flatMap_append, hHead, List.length_append, List.length_cons,
        List.length_cons]
      omega

theorem readString_stringText (value : String) (rest : List Char) :
    ∃ more, (stringText value).flatMap spell ++ rest = quote :: more ∧
      readString (more.length + 1) more = some (value.toList, rest) := by
  have hQuote : spell quote = [quote] := spelling.same quote (by decide)
  refine ⟨(value.toList.flatMap escapeChar).flatMap spell ++ quote :: rest, ?_, ?_⟩
  · simp [stringText, List.flatMap_append, hQuote]
  · apply readString_spelled spelling
    have hLength := length_le_spelled spelling value.toList
    rw [List.length_append]
    omega

end

private theorem skipBlanks_cons {c : Char} (rest : List Char) (h : isBlank c = false) :
    skipBlanks (c :: rest) = c :: rest := by
  simp [skipBlanks, h]

theorem ofDigitChars_lt {digits : List Char} (hDigits : ∀ c ∈ digits, c.isDigit = true) :
    Nat.ofDigitChars 10 digits 0 < 10 ^ digits.length := by
  induction digits with
  | nil => simp
  | cons c rest ih =>
      have hRest := ih fun d hd => hDigits d (List.mem_cons_of_mem _ hd)
      have hDigit := hDigits c (by simp)
      simp only [Char.isDigit, Bool.and_eq_true, decide_eq_true_eq] at hDigit
      have hHigh : c.toNat ≤ 57 := hDigit.2
      have hZero : '0'.toNat = 48 := rfl
      rw [Nat.ofDigitChars_cons, Nat.ofDigitChars_eq_ofDigitChars_zero, List.length_cons, Nat.pow_succ]
      have hValue : 10 * 0 + (c.toNat - '0'.toNat) ≤ 9 := by omega
      have hProduct := Nat.mul_le_mul_left (10 ^ rest.length) hValue
      omega

/-- The digits of a number have no leading zero. -/
private theorem toDigits_no_zero (value : Nat) :
    ¬(1 < (Nat.toDigits 10 value).length ∧ (Nat.toDigits 10 value).head? = some '0') := by
  rintro ⟨hLong, hHead⟩
  cases hDigits : Nat.toDigits 10 value with
  | nil => exact absurd hDigits Nat.toDigits_ne_nil
  | cons first rest =>
      rw [hDigits] at hHead hLong
      obtain rfl : first = '0' := Option.some.inj hHead
      have hRest : ∀ c ∈ rest, c.isDigit = true := fun c hc =>
        toDigits_digit value c (hDigits ▸ List.mem_cons_of_mem _ hc)
      have hValue : Nat.ofDigitChars 10 (Nat.toDigits 10 value) 0 = value := Nat.ofDigitChars_ten_toDigits
      have hBound := ofDigitChars_lt hRest
      rw [hDigits, Nat.ofDigitChars_cons] at hValue
      have hSame : Nat.ofDigitChars 10 rest 0 = value := hValue
      rw [hSame] at hBound
      have hPositive : 0 < rest.length := by simpa using hLong
      have hShort := (Nat.length_toDigits_le_iff (by decide) hPositive).mpr hBound
      rw [hDigits, List.length_cons] at hShort
      omega

theorem readDigits_toDigits (value : Nat) (hSmall : value < 10 ^ maxDigits) {rest : List Char}
    (hEnds : Ends rest) : readDigits (Nat.toDigits 10 value ++ rest) = some (value, rest) := by
  have hTake : rest.takeWhile Char.isDigit = [] ∧ rest.dropWhile Char.isDigit = rest := by
    cases rest with
    | nil => simp
    | cons c more => simp [hEnds c more rfl]
  have hDigits := toDigits_digit value
  have hLength : (Nat.toDigits 10 value).length ≤ maxDigits :=
    (Nat.length_toDigits_le_iff (by decide) (by decide)).mpr hSmall
  unfold readDigits
  rw [List.takeWhile_append_of_pos hDigits, List.dropWhile_append_of_pos hDigits, hTake.1, hTake.2,
    List.append_nil]
  have hGood : ¬(Nat.toDigits 10 value = [] ∨ (1 < (Nat.toDigits 10 value).length ∧
      (Nat.toDigits 10 value).head? = some '0') ∨ maxDigits < (Nat.toDigits 10 value).length) := by
    rintro (h | h | h)
    · exact Nat.toDigits_ne_nil h
    · exact toDigits_no_zero value h
    · omega
  simp only [if_neg hGood, Nat.ofDigitChars_ten_toDigits]

theorem readInt_intText {value : Int} (hSmall : value.natAbs < 10 ^ maxDigits) {rest : List Char}
    (hEnds : Ends rest) : readInt (intText value ++ rest) = some (value, rest) := by
  cases value with
  | ofNat count =>
      obtain ⟨first, more, hDigits, hDigit⟩ := toDigits_head count
      have hRead := readDigits_toDigits count hSmall hEnds
      have hSign : first ≠ '-' := by
        rintro rfl
        exact absurd hDigit (by decide)
      rw [hDigits, List.cons_append] at hRead
      rw [intText, hDigits, List.cons_append, readInt, if_neg hSign, hRead]
      rfl
  | negSucc count =>
      have hRead := readDigits_toDigits (count + 1) hSmall hEnds
      rw [intText, List.cons_append, readInt, if_pos rfl, hRead]
      rfl

/-- A character that opens a value is printable and closes nothing. -/
private theorem kindOf_some {c : Char} {found : Kind} (h : kindOf c = some found) :
    isBlank c = false ∧ c.toNat < 127 ∧ c ≠ ']' ∧ c ≠ Char.ofNat 125 := by
  have hChar : c = Char.ofNat c.toNat := (Char.ofNat_toNat c).symm
  have hCode : c.toNat = 110 ∨ c.toNat = 116 ∨ c.toNat = 102 ∨ c.toNat = 34 ∨ c.toNat = 91 ∨
      c.toNat = 123 ∨ c.toNat = 45 ∨ (48 ≤ c.toNat ∧ c.toNat ≤ 57) := by
    unfold kindOf at h
    split at h <;> first | omega | skip
    split at h
    · omega
    · cases h
  refine ⟨?_, by omega, ?_, ?_⟩
  · simp only [isBlank, Bool.or_eq_false_iff, decide_eq_false_iff_not]
    omega
  · rintro rfl
    exact absurd hCode (by decide)
  · rintro rfl
    exact absurd hCode (by decide)

section
variable {spell : Char → List Char} (spelling : Spelling spell)
include spelling

theorem spelled_text_head (value : Json) :
    ∃ first more, value.text.flatMap spell = first :: more ∧ isBlank first = false ∧
      first ≠ ']' ∧ first ≠ Char.ofNat 125 := by
  obtain ⟨first, more, hText, hKind⟩ := text_head value
  obtain ⟨hBlank, hCode, hBracket, hBrace⟩ := kindOf_some hKind
  rw [hText, List.flatMap_cons, spelling.same first hCode]
  exact ⟨first, _, rfl, hBlank, hBracket, hBrace⟩

theorem ends_spelled {characters rest : List Char} {first : Char} {more : List Char}
    (hHead : characters = first :: more) (hCode : first.toNat < 127) (hDigit : first.isDigit = false) :
    Ends (characters.flatMap spell ++ rest) := by
  rw [hHead, List.flatMap_cons, spelling.same first hCode]
  exact ends_cons hDigit

theorem ends_spelled_items (items : List Json) (rest : List Char) :
    Ends ((itemsText items).flatMap spell ++ rest) := by
  cases items with
  | nil => exact ends_spelled spelling rfl (by decide) (by decide)
  | cons item more => exact ends_spelled spelling rfl (by decide) (by decide)

theorem ends_spelled_members (members : List (String × Json)) (rest : List Char) :
    Ends ((membersText members).flatMap spell ++ rest) := by
  cases members with
  | nil => exact ends_spelled spelling rfl (by decide) (by decide)
  | cons member more => exact ends_spelled spelling rfl (by decide) (by decide)

theorem readWord_spelled (word : List Char) (hAscii : ∀ c ∈ word, c.toNat < 127) (value : Json)
    (rest : List Char) : readWord word value (word.flatMap spell ++ rest) = some (value, rest) := by
  rw [spelling.ascii hAscii, readWord, if_pos (by simp), List.drop_left]

theorem intText_ascii (value : Int) : (intText value).flatMap spell = intText value := by
  have hDigit : ∀ count, ∀ c ∈ Nat.toDigits 10 count, c.toNat < 127 := by
    intro count c hc
    have hDigit := toDigits_digit count c hc
    simp only [Char.isDigit, Bool.and_eq_true, decide_eq_true_eq] at hDigit
    have hHigh : c.toNat ≤ 57 := hDigit.2
    omega
  apply spelling.ascii
  cases value with
  | ofNat count => exact hDigit count
  | negSucc count =>
      intro c hc
      rcases List.mem_cons.mp hc with rfl | hc
      · decide
      · exact hDigit _ c hc

omit spelling in
/-- An integer is not taken for anything else. -/
theorem readValue_int {value : Int} (hSmall : value.natAbs < 10 ^ maxDigits) {rest : List Char}
    (hEnds : Ends rest) (fuel : Nat) :
    readValue (fuel + 1) (intText value ++ rest) = some (int value, rest) := by
  obtain ⟨first, more, hText, hKind⟩ := text_head (int value)
  rw [text] at hText
  obtain ⟨hBlank, -⟩ := kindOf_some hKind
  have hRead := readInt_intText hSmall hEnds
  rw [hText, List.cons_append] at hRead ⊢
  rw [readValue, skipBlanks_cons _ hBlank]
  unfold kindOf at hKind
  split at hKind <;> first | cases hKind | skip
  simp only [hRead, bind, Option.bind, pure]

mutual
theorem readValue_text : ∀ (value : Json) (depth fuel : Nat) (rest : List Char), value.Plain depth →
    value.text.length ≤ fuel → Ends rest →
    readValue fuel (value.text.flatMap spell ++ rest) = some (value, rest)
  | value, depth, 0, rest, _, hFuel, _ => by
      obtain ⟨first, more, hText, -⟩ := text_head value
      rw [hText] at hFuel
      cases hFuel
  | null, depth, fuel + 1, rest, _, _, _ => by
      have hWord := readWord_spelled spelling "ull".toList (by simp) null rest
      rw [show null.text = 'n' :: "ull".toList from rfl, List.flatMap_cons, spelling.same _ (by decide),
        List.append_assoc, List.singleton_append, readValue, skipBlanks_cons _ (by decide)]
      exact hWord
  | bool Bool.true, depth, fuel + 1, rest, _, _, _ => by
      have hWord := readWord_spelled spelling "rue".toList (by simp) (bool true) rest
      rw [show (bool true).text = 't' :: "rue".toList from rfl, List.flatMap_cons,
        spelling.same _ (by decide), List.append_assoc, List.singleton_append, readValue,
        skipBlanks_cons _ (by decide)]
      exact hWord
  | bool Bool.false, depth, fuel + 1, rest, _, _, _ => by
      have hWord := readWord_spelled spelling "alse".toList (by simp) (bool false) rest
      rw [show (bool false).text = 'f' :: "alse".toList from rfl, List.flatMap_cons,
        spelling.same _ (by decide), List.append_assoc, List.singleton_append, readValue,
        skipBlanks_cons _ (by decide)]
      exact hWord
  | int value, depth, fuel + 1, rest, hPlain, _, hEnds => by
      rw [text, intText_ascii spelling]
      exact readValue_int ((plain_int depth value).mp hPlain) hEnds fuel
  | str value, depth, fuel + 1, rest, _, _, _ => by
      obtain ⟨more, hText, hRead⟩ := readString_stringText spelling value rest
      rw [text, hText, readValue, skipBlanks_cons _ (by decide)]
      simp only [show quote.toNat = 34 from rfl, hRead, bind, Option.bind, pure, String.ofList_toList]
  | arr [], depth, fuel + 1, rest, _, _, _ => by
      have hOpen := spelling.same '[' (by decide)
      have hClose := spelling.same ']' (by decide)
      rw [text, List.flatMap_cons, List.flatMap_cons, hOpen, hClose]
      exact (rfl : readValue (fuel + 1) ('[' :: ']' :: rest) = _)
  | arr (item :: items), 0, fuel + 1, rest, hPlain, _, _ => absurd hPlain (not_plain_arr _)
  | arr (item :: items), depth + 1, fuel + 1, rest, hPlain, hFuel, _ => by
      have hLength : (item.text ++ itemsText items).length ≤ fuel := by
        rw [text, List.length_cons] at hFuel
        omega
      have hRead := readItems_text item items depth fuel rest hPlain hLength
      obtain ⟨first, more, hHead, hBlank, hBracket, -⟩ := spelled_text_head spelling item
      rw [text, List.flatMap_cons, spelling.same _ (by decide), List.append_assoc,
        List.singleton_append, readValue, skipBlanks_cons _ (by decide)]
      rw [List.flatMap_append, hHead, List.append_assoc, List.cons_append] at hRead ⊢
      simp only [show '['.toNat = 91 from rfl, skipBlanks_cons _ hBlank, List.head?_cons,
        Option.some.injEq, if_neg hBracket, hRead, bind, Option.bind, pure]
  | obj [], depth, fuel + 1, rest, _, _, _ => by
      have hOpen := spelling.same (Char.ofNat 123) (by decide)
      have hClose := spelling.same (Char.ofNat 125) (by decide)
      rw [text, List.flatMap_cons, List.flatMap_cons, hOpen, hClose]
      exact (rfl : readValue (fuel + 1) (Char.ofNat 123 :: Char.ofNat 125 :: rest) = _)
  | obj ((name, value) :: members), 0, fuel + 1, rest, hPlain, _, _ => absurd hPlain (not_plain_obj _)
  | obj ((name, value) :: members), depth + 1, fuel + 1, rest, hPlain, hFuel, _ => by
      have hLength : (stringText name ++ ':' :: (value.text ++ membersText members)).length ≤ fuel := by
        rw [text, List.length_cons] at hFuel
        omega
      have hRead := readMembers_text name value members depth fuel rest hPlain.1 hPlain.2 hLength
      obtain ⟨more, hHead, -⟩ := readString_stringText spelling name
        ((':' :: (value.text ++ membersText members)).flatMap spell ++ rest)
      rw [text, List.flatMap_cons, spelling.same _ (by decide), List.append_assoc,
        List.singleton_append, readValue, skipBlanks_cons _ (by decide)]
      rw [List.flatMap_append, List.append_assoc, hHead] at hRead ⊢
      simp only [show (Char.ofNat 123).toNat = 123 from rfl,
        skipBlanks_cons more (show isBlank quote = false from rfl), List.head?_cons, Option.some.injEq,
        if_neg (show quote ≠ Char.ofNat 125 by decide), hRead, bind, Option.bind, pure]

theorem readItems_text : ∀ (item : Json) (items : List Json) (depth fuel : Nat) (rest : List Char),
    (∀ other ∈ item :: items, other.Plain depth) →
    (item.text ++ itemsText items).length ≤ fuel →
    readItems fuel ((item.text ++ itemsText items).flatMap spell ++ rest) = some (item :: items, rest)
  | item, items, depth, 0, rest, _, hFuel => by
      obtain ⟨first, more, hText, -⟩ := text_head item
      rw [hText] at hFuel
      cases hFuel
  | item, [], depth, fuel + 1, rest, hPlain, hFuel => by
      have hItem : item.text.length ≤ fuel := by
        simp only [itemsText, List.length_append, List.length_singleton] at hFuel
        omega
      have hRead := readValue_text item depth fuel ((itemsText []).flatMap spell ++ rest)
        (hPlain item (by simp)) hItem (ends_spelled_items spelling [] rest)
      have hClose : (itemsText []).flatMap spell ++ rest = ']' :: rest :=
        spelled_cons spelling (by decide) [] rest
      rw [List.flatMap_append, List.append_assoc, readItems, hRead, hClose]
      simp only [bind, Option.bind, skipBlanks_cons rest (show isBlank ']' = false from rfl), if_true]
  | item, next :: items, depth, fuel + 1, rest, hPlain, hFuel => by
      have hBound : item.text.length ≤ fuel ∧ (next.text ++ itemsText items).length ≤ fuel := by
        simp only [itemsText, List.length_append, List.length_cons] at hFuel ⊢
        omega
      have hRead := readValue_text item depth fuel ((itemsText (next :: items)).flatMap spell ++ rest)
        (hPlain item (by simp)) hBound.1 (ends_spelled_items spelling (next :: items) rest)
      have hRest := readItems_text next items depth fuel rest
        (fun other hOther => hPlain other (List.mem_cons_of_mem _ hOther)) hBound.2
      have hComma : (itemsText (next :: items)).flatMap spell ++ rest =
          ',' :: ((next.text ++ itemsText items).flatMap spell ++ rest) :=
        spelled_cons spelling (by decide) _ rest
      rw [List.flatMap_append, List.append_assoc, readItems, hRead, hComma]
      simp only [bind, Option.bind, skipBlanks_cons _ (show isBlank ',' = false from rfl),
        if_neg (show ',' ≠ ']' by decide), if_true, hRest, pure]

theorem readMembers_text : ∀ (name : String) (value : Json) (members : List (String × Json))
    (depth fuel : Nat) (rest : List Char), (((name, value) :: members).map Prod.fst).Nodup →
    (∀ member ∈ (name, value) :: members, member.2.Plain depth) →
    (stringText name ++ ':' :: (value.text ++ membersText members)).length ≤ fuel →
    readMembers fuel ((stringText name ++ ':' :: (value.text ++ membersText members)).flatMap spell ++
      rest) = some ((name, value) :: members, rest)
  | name, value, members, depth, 0, rest, _, _, hFuel => by
      simp at hFuel
  | name, value, [], depth, fuel + 1, rest, _, hPlain, hFuel => by
      have hValue : value.text.length ≤ fuel := by
        simp only [membersText, List.length_append, List.length_cons, List.length_nil] at hFuel
        omega
      have hRead := readValue_text value depth fuel ((membersText []).flatMap spell ++ rest)
        (hPlain (name, value) (by simp)) hValue (ends_spelled_members spelling [] rest)
      obtain ⟨more, hHead, hName⟩ := readString_stringText spelling name
        ((':' :: (value.text ++ membersText [])).flatMap spell ++ rest)
      have hColon : (':' :: (value.text ++ membersText [])).flatMap spell ++ rest =
          ':' :: (value.text.flatMap spell ++ ((membersText []).flatMap spell ++ rest)) := by
        rw [spelled_cons spelling (by decide), List.flatMap_append, List.append_assoc]
      have hClose : (membersText []).flatMap spell ++ rest = Char.ofNat 125 :: rest :=
        spelled_cons spelling (by decide) [] rest
      rw [List.flatMap_append, List.append_assoc, hHead, readMembers,
        skipBlanks_cons more (show isBlank quote = false from rfl)]
      simp only [if_true, hName, bind, Option.bind, hColon,
        skipBlanks_cons _ (show isBlank ':' = false from rfl), List.head?_cons, List.tail_cons, hRead]
      simp only [hClose, skipBlanks_cons _ (show isBlank (Char.ofNat 125) = false from rfl), if_true,
        String.ofList_toList]
  | name, value, (next, image) :: members, depth, fuel + 1, rest, hNames, hPlain, hFuel => by
      have hBound : value.text.length ≤ fuel ∧
          (stringText next ++ ':' :: (image.text ++ membersText members)).length ≤ fuel := by
        simp only [membersText, List.length_append, List.length_cons] at hFuel ⊢
        omega
      have hRead := readValue_text value depth fuel
        ((membersText ((next, image) :: members)).flatMap spell ++ rest) (hPlain (name, value) (by simp))
        hBound.1 (ends_spelled_members spelling ((next, image) :: members) rest)
      have hRest := readMembers_text next image members depth fuel rest (List.nodup_cons.mp hNames).2
        (fun other hOther => hPlain other (List.mem_cons_of_mem _ hOther)) hBound.2
      have hNew : name ∉ ((next, image) :: members).map Prod.fst := (List.nodup_cons.mp hNames).1
      obtain ⟨more, hHead, hName⟩ := readString_stringText spelling name
        ((':' :: (value.text ++ membersText ((next, image) :: members))).flatMap spell ++ rest)
      have hColon : (':' :: (value.text ++ membersText ((next, image) :: members))).flatMap spell ++ rest =
          ':' :: (value.text.flatMap spell ++ ((membersText ((next, image) :: members)).flatMap spell ++ rest)) := by
        rw [spelled_cons spelling (by decide), List.flatMap_append, List.append_assoc]
      have hComma : (membersText ((next, image) :: members)).flatMap spell ++ rest =
          ',' :: ((stringText next ++ ':' :: (image.text ++ membersText members)).flatMap spell ++ rest) :=
        spelled_cons spelling (by decide) _ rest
      rw [List.flatMap_append, List.append_assoc, hHead, readMembers,
        skipBlanks_cons more (show isBlank quote = false from rfl)]
      simp only [if_true, hName, bind, Option.bind, hColon,
        skipBlanks_cons _ (show isBlank ':' = false from rfl), List.head?_cons, List.tail_cons, hRead]
      simp only [hComma, skipBlanks_cons _ (show isBlank ',' = false from rfl),
        if_neg (show ',' ≠ Char.ofNat 125 by decide), if_true, hRest, String.ofList_toList, if_neg hNew, pure]
end

omit spelling in
private theorem length_le_text (characters : List Char) (hRead : ∀ c ∈ characters, spell c ≠ []) :
    characters.length ≤ (characters.flatMap spell).length := by
  induction characters with
  | nil => simp
  | cons c rest ih =>
      have hOne := List.length_pos_iff.mpr (hRead c (by simp))
      have hRest := ih fun d hd => hRead d (List.mem_cons_of_mem _ hd)
      rw [List.flatMap_cons, List.length_append, List.length_cons]
      omega

/-- The reader reads back what was written, with blanks after it. -/
theorem readText_spelled {value : Json} {depth : Nat} (hPlain : value.Plain depth) {rest : List Char}
    (hRest : skipBlanks rest = []) : readText (value.text.flatMap spell ++ rest) = some value := by
  have hSpell : ∀ c, spell c ≠ [] := by
    intro c
    by_cases hCode : c.toNat < 127
    · simp [spelling.same c hCode]
    · obtain ⟨first, more, hHead, -⟩ := spelling.head c (by omega)
      simp [hHead]
  have hEnds : Ends rest := by
    rintro first more rfl
    by_contra hDigit
    have hBlank : isBlank first = false := by
      by_contra hBlank
      simp only [Bool.not_eq_false, isBlank, Bool.or_eq_true, decide_eq_true_eq] at hBlank
      simp only [Bool.not_eq_false, Char.isDigit, Bool.and_eq_true, decide_eq_true_eq] at hDigit
      have hLow : 48 ≤ first.toNat := hDigit.1
      omega
    rw [skipBlanks_cons more hBlank] at hRest
    cases hRest
  have hLength := length_le_text value.text fun c _ => hSpell c
  have hRead := readValue_text spelling value depth
    ((value.text.flatMap spell ++ rest).length + 1) rest hPlain
    (by rw [List.length_append]; omega) hEnds
  rw [readText, hRead]
  simp only [bind, Option.bind, hRest, if_true]

end

/-- A value written compactly, alone or on a line of its own, is read back. -/
theorem readText_text {value : Json} {depth : Nat} (hPlain : value.Plain depth) {rest : List Char}
    (hRest : skipBlanks rest = []) : readText (value.text ++ rest) = some value := by
  have hRead := readText_spelled spelling_self hPlain hRest
  rwa [List.flatMap_singleton'] at hRead

theorem readText_asciiText {value : Json} {depth : Nat} (hPlain : value.Plain depth) {rest : List Char}
    (hRest : skipBlanks rest = []) : readText (value.asciiText ++ rest) = some value :=
  readText_spelled spelling_ascii hPlain hRest

end Json
