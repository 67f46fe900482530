import Mathlib.Tactic.IntervalCases

/-! JSON values and their compact text: no blanks, only the escapes JSON
requires, members in the order in which they are listed. The text determines
the value, so comparing two texts compares the two documents. -/

inductive Json where
  | null
  | bool (value : Bool)
  | int (value : Int)
  | str (value : String)
  | arr (items : List Json)
  | obj (members : List (String × Json))

namespace Json

/-- The member of an object, or nothing when it is absent or not an object. -/
def get? : Json → String → Option Json
  | obj members, name => (members.find? fun member => member.1 = name).map Prod.snd
  | _, _ => none

def str? : Json → Option String
  | str value => some value
  | _ => none

/-- An integer that is not a boolean. -/
def int? : Json → Option Int
  | int value => some value
  | _ => none

theorem str?_eq_some {value : Json} {text : String} : value.str? = some text ↔ value = .str text := by
  cases value <;> simp [str?]

theorem int?_eq_some {value : Json} {number : Int} : value.int? = some number ↔ value = .int number := by
  cases value <;> simp [int?]

/-- The object has exactly these member names. -/
def hasExactly (names : List String) : Json → Bool
  | obj members => members.all (fun member => member.1 ∈ names) &&
      names.all fun name => members.any fun member => member.1 = name
  | _ => false

def quote : Char := Char.ofNat 34
def backslash : Char := Char.ofNat 92

private def hexDigit (value : Nat) : Char :=
  if value < 10 then Char.ofNat (48 + value) else Char.ofNat (87 + value)

private def hexValue (digit : Char) : Nat :=
  if digit.toNat < 58 then digit.toNat - 48 else digit.toNat - 87

/-- Quotes, backslashes and control characters are escaped, nothing else. -/
def escapeChar (c : Char) : List Char :=
  match c.toNat with
  | 34 => [backslash, quote]
  | 92 => [backslash, backslash]
  | 8 => [backslash, 'b']
  | 9 => [backslash, 't']
  | 10 => [backslash, 'n']
  | 12 => [backslash, 'f']
  | 13 => [backslash, 'r']
  | code =>
      if code < 32 then [backslash, 'u', '0', '0', hexDigit (code / 16), hexDigit (code % 16)]
      else [c]

private def unescapeLetter : Nat → Char
  | 98 => Char.ofNat 8
  | 116 => Char.ofNat 9
  | 110 => Char.ofNat 10
  | 102 => Char.ofNat 12
  | 114 => Char.ofNat 13
  | code => Char.ofNat code

private def unescape : List Char → Option (Char × List Char)
  | [] => none
  | first :: rest =>
      if first.toNat = 92 then
        match rest with
        | [] => none
        | letter :: rest =>
            if letter.toNat = 117 then
              match rest with
              | _ :: _ :: high :: low :: rest =>
                  some (Char.ofNat (16 * hexValue high + hexValue low), rest)
              | _ => none
            else some (unescapeLetter letter.toNat, rest)
      else some (first, rest)

private theorem unescape_escapeChar (c : Char) (rest : List Char) :
    unescape (escapeChar c ++ rest) = some (c, rest) := by
  have hChar : c = Char.ofNat c.toNat := (Char.ofNat_toNat c).symm
  by_cases hSpecial : c.toNat < 32 ∨ c.toNat = 34 ∨ c.toNat = 92
  · generalize c.toNat = code at hChar hSpecial
    subst hChar
    rcases hSpecial with hControl | rfl | rfl
    · interval_cases code <;> rfl
    · rfl
    · rfl
  · have hCode : escapeChar c = [c] := by
      unfold escapeChar
      split <;> first | omega | simp_all
    have hFirst : c.toNat ≠ 92 := by omega
    simp [hCode, unescape, hFirst]

theorem escapeChar_head (c : Char) :
    ∃ first rest, escapeChar c = first :: rest ∧ first ≠ quote := by
  unfold escapeChar
  split
  case h_8 code h1 h2 h3 h4 h5 h6 h7 =>
    split
    · exact ⟨_, _, rfl, by decide⟩
    · refine ⟨_, _, rfl, ?_⟩
      intro hQuote
      exact h1 (by rw [hQuote]; rfl)
  all_goals exact ⟨_, _, rfl, by decide⟩

/-- The escaped characters of a string up to its closing quote determine it. -/
private theorem escaped_inj : ∀ (left right : List Char) (x y : List Char),
    left.flatMap escapeChar ++ quote :: x = right.flatMap escapeChar ++ quote :: y →
      left = right ∧ x = y := by
  intro left
  induction left with
  | nil =>
      intro right x y h
      cases right with
      | nil => simpa using h
      | cons c rest =>
          obtain ⟨first, more, hEscape, hFirst⟩ := escapeChar_head c
          simp only [List.flatMap_nil, List.nil_append, List.flatMap_cons, hEscape,
            List.cons_append, List.cons.injEq] at h
          exact absurd h.1.symm hFirst
  | cons c rest ih =>
      intro right x y h
      cases right with
      | nil =>
          obtain ⟨first, more, hEscape, hFirst⟩ := escapeChar_head c
          simp only [List.flatMap_nil, List.nil_append, List.flatMap_cons, hEscape,
            List.cons_append, List.cons.injEq] at h
          exact absurd h.1 hFirst
      | cons d other =>
          have hRead := congrArg unescape h
          simp only [List.flatMap_cons, List.append_assoc, unescape_escapeChar,
            Option.some.injEq, Prod.mk.injEq] at hRead
          obtain ⟨hHead, hTail⟩ := hRead
          obtain ⟨hRest, hEnd⟩ := ih other x y hTail
          exact ⟨by rw [hHead, hRest], hEnd⟩

def stringText (value : String) : List Char :=
  quote :: (value.toList.flatMap escapeChar ++ [quote])

def intText : Int → List Char
  | Int.ofNat value => Nat.toDigits 10 value
  | Int.negSucc value => '-' :: Nat.toDigits 10 (value + 1)

mutual
/-- Compact text of a value. -/
def text : Json → List Char
  | null => "null".toList
  | bool true => "true".toList
  | bool false => "false".toList
  | int value => intText value
  | str value => stringText value
  | arr [] => ['[', ']']
  | arr (item :: rest) => '[' :: (text item ++ itemsText rest)
  | obj [] => [Char.ofNat 123, Char.ofNat 125]
  | obj ((name, value) :: rest) =>
      Char.ofNat 123 :: (stringText name ++ ':' :: (text value ++ membersText rest))

def itemsText : List Json → List Char
  | [] => [']']
  | item :: rest => ',' :: (text item ++ itemsText rest)

def membersText : List (String × Json) → List Char
  | [] => [Char.ofNat 125]
  | (name, value) :: rest =>
      ',' :: (stringText name ++ ':' :: (text value ++ membersText rest))
end

/-- What may follow a complete value. -/
def Ends (rest : List Char) : Prop :=
  ∀ first more, rest = first :: more → first.isDigit = false

private theorem digits_inj {left right x y : List Char}
    (hLeft : ∀ c ∈ left, c.isDigit = true) (hRight : ∀ c ∈ right, c.isDigit = true)
    (hx : Ends x) (hy : Ends y) (h : left ++ x = right ++ y) : left = right ∧ x = y := by
  induction left generalizing right with
  | nil =>
      cases right with
      | nil => exact ⟨rfl, h⟩
      | cons c rest =>
          have hDigit := hx c (rest ++ y) h
          rw [hRight c (by simp)] at hDigit
          cases hDigit
  | cons c rest ih =>
      cases right with
      | nil =>
          have hDigit := hy c (rest ++ x) h.symm
          rw [hLeft c (by simp)] at hDigit
          cases hDigit
      | cons d other =>
          simp only [List.cons_append, List.cons.injEq] at h
          obtain ⟨hHead, hTail⟩ := h
          obtain ⟨hRest, hEnd⟩ := @ih other (fun e he => hLeft e (List.mem_cons_of_mem _ he))
            (fun e he => hRight e (List.mem_cons_of_mem _ he)) hTail
          exact ⟨by rw [hHead, hRest], hEnd⟩

theorem toDigits_digit (value : Nat) : ∀ c ∈ Nat.toDigits 10 value, c.isDigit = true :=
  fun _ h => Nat.isDigit_of_mem_toDigits (by decide) (by decide) h

private theorem toDigits_inj {left right : Nat} (h : Nat.toDigits 10 left = Nat.toDigits 10 right) :
    left = right := by
  have hValue := congrArg (fun digits => Nat.ofDigitChars 10 digits 0) h
  simpa only [Nat.ofDigitChars_ten_toDigits] using hValue

theorem toDigits_head (value : Nat) :
    ∃ first rest, Nat.toDigits 10 value = first :: rest ∧ first.isDigit = true := by
  cases h : Nat.toDigits 10 value with
  | nil => exact absurd h Nat.toDigits_ne_nil
  | cons first rest => exact ⟨first, rest, rfl, toDigits_digit value first (by simp [h])⟩

private theorem intText_inj {left right : Int} {x y : List Char} (hx : Ends x) (hy : Ends y)
    (h : intText left ++ x = intText right ++ y) : left = right ∧ x = y := by
  have hNoSign : ∀ (value : Nat) (rest other : List Char),
      Nat.toDigits 10 value ++ rest ≠ '-' :: other := by
    intro value rest other hEq
    obtain ⟨first, more, hDigits, hDigit⟩ := toDigits_head value
    rw [hDigits, List.cons_append, List.cons.injEq] at hEq
    rw [hEq.1] at hDigit
    exact absurd hDigit (by decide)
  cases left with
  | ofNat m =>
      cases right with
      | ofNat n =>
          obtain ⟨hDigits, hEnd⟩ := digits_inj (toDigits_digit m) (toDigits_digit n) hx hy h
          exact ⟨by rw [toDigits_inj hDigits], hEnd⟩
      | negSucc n => exact absurd h (hNoSign m x _)
  | negSucc m =>
      cases right with
      | ofNat n => exact absurd h.symm (hNoSign n y _)
      | negSucc n =>
          simp only [intText, List.cons_append, List.cons.injEq, true_and] at h
          obtain ⟨hDigits, hEnd⟩ := digits_inj (toDigits_digit _) (toDigits_digit _) hx hy h
          exact ⟨by rw [Nat.succ_injective (toDigits_inj hDigits)], hEnd⟩

/-- The kind of a value, as told by the first character of its text. -/
inductive Kind where
  | null | true | false | int | str | arr | obj
deriving DecidableEq

def kind : Json → Kind
  | null => .null
  | bool Bool.true => .true
  | bool Bool.false => .false
  | int _ => .int
  | str _ => .str
  | arr _ => .arr
  | obj _ => .obj

def kindOf (first : Char) : Option Kind :=
  match first.toNat with
  | 110 => some .null
  | 116 => some .true
  | 102 => some .false
  | 34 => some .str
  | 91 => some .arr
  | 123 => some .obj
  | code => if code = 45 ∨ (48 ≤ code ∧ code ≤ 57) then some .int else none

theorem kindOf_digit {c : Char} (h : c.isDigit = true) : kindOf c = some .int := by
  simp only [Char.isDigit, Bool.and_eq_true, decide_eq_true_eq] at h
  have hLow : 48 ≤ c.toNat := h.1
  have hHigh : c.toNat ≤ 57 := h.2
  unfold kindOf
  generalize c.toNat = code at hLow hHigh
  interval_cases code <;> rfl

theorem text_head (value : Json) :
    ∃ first rest, text value = first :: rest ∧ kindOf first = some (kind value) := by
  match value with
  | null => exact ⟨'n', "ull".toList, rfl, rfl⟩
  | bool Bool.true => exact ⟨'t', "rue".toList, rfl, rfl⟩
  | bool Bool.false => exact ⟨'f', "alse".toList, rfl, rfl⟩
  | int (Int.ofNat n) =>
      obtain ⟨first, rest, hDigits, hDigit⟩ := toDigits_head n
      exact ⟨first, rest, by rw [text, intText, hDigits], kindOf_digit hDigit⟩
  | int (Int.negSucc n) => exact ⟨'-', _, by rw [text, intText], rfl⟩
  | str s => exact ⟨quote, _, by rw [text, stringText], rfl⟩
  | arr [] => exact ⟨'[', _, by rw [text], rfl⟩
  | arr (item :: rest) => exact ⟨'[', _, by rw [text], rfl⟩
  | obj [] => exact ⟨Char.ofNat 123, _, by rw [text], rfl⟩
  | obj (member :: rest) => exact ⟨Char.ofNat 123, _, by rw [text], rfl⟩

private theorem kind_eq_of_text {left right : Json} {x y : List Char}
    (h : text left ++ x = text right ++ y) : kind left = kind right := by
  obtain ⟨first, rest, hLeft, hKind⟩ := text_head left
  obtain ⟨other, more, hRight, hOther⟩ := text_head right
  rw [hLeft, hRight, List.cons_append, List.cons_append, List.cons.injEq] at h
  rw [h.1, hOther] at hKind
  exact (Option.some.inj hKind).symm

theorem ends_cons {c : Char} {rest : List Char} (h : c.isDigit = false) : Ends (c :: rest) := by
  intro first more hEq
  rw [List.cons.injEq] at hEq
  rw [← hEq.1]
  exact h

theorem ends_itemsText (items : List Json) (x : List Char) : Ends (itemsText items ++ x) := by
  cases items <;> exact ends_cons (by decide)

theorem ends_membersText (members : List (String × Json)) (x : List Char) :
    Ends (membersText members ++ x) := by
  cases members <;> exact ends_cons (by decide)

private theorem stringText_inj {left right : String} {x y : List Char}
    (h : stringText left ++ x = stringText right ++ y) : left = right ∧ x = y := by
  simp only [stringText, List.cons_append, List.append_assoc, List.nil_append, List.cons.injEq,
    true_and] at h
  obtain ⟨hChars, hEnd⟩ := escaped_inj _ _ _ _ h
  exact ⟨String.toList_inj.mp hChars, hEnd⟩

/-- No value starts with a character that opens no value. -/
private theorem text_ne_cons {value : Json} {x rest : List Char} {c : Char} (hNone : kindOf c = none) :
    text value ++ x ≠ c :: rest := by
  intro h
  obtain ⟨first, more, hText, hKind⟩ := text_head value
  rw [hText, List.cons_append, List.cons.injEq] at h
  rw [h.1, hNone] at hKind
  cases hKind

mutual
private theorem text_append_inj : ∀ (left right : Json) (x y : List Char), Ends x → Ends y →
    text left ++ x = text right ++ y → left = right ∧ x = y
  | null, right, x, y, _, _, h => by
      have hKind := kind_eq_of_text h
      cases right with
      | null => exact ⟨rfl, List.append_cancel_left h⟩
      | bool value => cases value <;> cases hKind
      | _ => cases hKind
  | bool Bool.true, right, x, y, _, _, h => by
      have hKind := kind_eq_of_text h
      cases right with
      | bool value =>
          cases value with
          | true => exact ⟨rfl, List.append_cancel_left h⟩
          | false => cases hKind
      | _ => cases hKind
  | bool Bool.false, right, x, y, _, _, h => by
      have hKind := kind_eq_of_text h
      cases right with
      | bool value =>
          cases value with
          | true => cases hKind
          | false => exact ⟨rfl, List.append_cancel_left h⟩
      | _ => cases hKind
  | int value, right, x, y, hx, hy, h => by
      have hKind := kind_eq_of_text h
      cases right with
      | int other =>
          simp only [text] at h
          obtain ⟨hValue, hEnd⟩ := intText_inj hx hy h
          exact ⟨by rw [hValue], hEnd⟩
      | bool value => cases value <;> cases hKind
      | _ => cases hKind
  | str value, right, x, y, _, _, h => by
      have hKind := kind_eq_of_text h
      cases right with
      | str other =>
          simp only [text] at h
          obtain ⟨hValue, hEnd⟩ := stringText_inj h
          exact ⟨by rw [hValue], hEnd⟩
      | bool value => cases value <;> cases hKind
      | _ => cases hKind
  | arr items, right, x, y, _, _, h => by
      have hKind := kind_eq_of_text h
      cases right with
      | arr others =>
          match items, others with
          | [], [] => exact ⟨rfl, by simpa [text] using h⟩
          | [], other :: more =>
              simp only [text, List.cons_append, List.nil_append, List.append_assoc, List.cons.injEq,
                true_and] at h
              exact absurd h.symm (text_ne_cons rfl)
          | item :: rest, [] =>
              simp only [text, List.cons_append, List.nil_append, List.append_assoc, List.cons.injEq,
                true_and] at h
              exact absurd h (text_ne_cons rfl)
          | item :: rest, other :: more =>
              simp only [text, List.cons_append, List.append_assoc, List.cons.injEq,
                true_and] at h
              obtain ⟨hItem, hTail⟩ := text_append_inj item other _ _ (ends_itemsText _ _)
                (ends_itemsText _ _) h
              obtain ⟨hRest, hEnd⟩ := itemsText_append_inj rest more x y hTail
              exact ⟨by rw [hItem, hRest], hEnd⟩
      | bool value => cases value <;> cases hKind
      | _ => cases hKind
  | obj members, right, x, y, _, _, h => by
      have hKind := kind_eq_of_text h
      cases right with
      | obj others =>
          match members, others with
          | [], [] => exact ⟨rfl, by simpa [text] using h⟩
          | [], (name, value) :: more =>
              simp only [text, stringText, List.cons_append, List.append_assoc, List.cons.injEq] at h
              exact absurd h.2.1 (by decide)
          | (name, value) :: rest, [] =>
              simp only [text, stringText, List.cons_append, List.append_assoc, List.cons.injEq] at h
              exact absurd h.2.1 (by decide)
          | (name, value) :: rest, (other, image) :: more =>
              simp only [text, List.cons_append, List.append_assoc, List.cons.injEq,
                true_and] at h
              obtain ⟨hName, hAfter⟩ := stringText_inj h
              obtain ⟨hValue, hTail⟩ := text_append_inj value image _ _ (ends_membersText _ _)
                (ends_membersText _ _) (List.tail_eq_of_cons_eq hAfter)
              obtain ⟨hRest, hEnd⟩ := membersText_append_inj rest more x y hTail
              exact ⟨by rw [hName, hValue, hRest], hEnd⟩
      | bool value => cases value <;> cases hKind
      | _ => cases hKind

private theorem itemsText_append_inj : ∀ (left right : List Json) (x y : List Char),
    itemsText left ++ x = itemsText right ++ y → left = right ∧ x = y
  | [], [], _, _, h => ⟨rfl, List.tail_eq_of_cons_eq h⟩
  | [], _ :: _, _, _, h => absurd (List.head_eq_of_cons_eq h) (by decide)
  | _ :: _, [], _, _, h => absurd (List.head_eq_of_cons_eq h) (by decide)
  | item :: rest, other :: more, x, y, h => by
      simp only [itemsText, List.cons_append, List.append_assoc, List.cons.injEq, true_and] at h
      obtain ⟨hItem, hTail⟩ := text_append_inj item other _ _ (ends_itemsText _ _)
        (ends_itemsText _ _) h
      obtain ⟨hRest, hEnd⟩ := itemsText_append_inj rest more x y hTail
      exact ⟨by rw [hItem, hRest], hEnd⟩

private theorem membersText_append_inj : ∀ (left right : List (String × Json)) (x y : List Char),
    membersText left ++ x = membersText right ++ y → left = right ∧ x = y
  | [], [], _, _, h => ⟨rfl, List.tail_eq_of_cons_eq h⟩
  | [], (_, _) :: _, _, _, h => absurd (List.head_eq_of_cons_eq h) (by decide)
  | (_, _) :: _, [], _, _, h => absurd (List.head_eq_of_cons_eq h) (by decide)
  | (name, value) :: rest, (other, image) :: more, x, y, h => by
      simp only [membersText, List.cons_append, List.append_assoc, List.cons.injEq, true_and] at h
      obtain ⟨hName, hAfter⟩ := stringText_inj h
      obtain ⟨hValue, hTail⟩ := text_append_inj value image _ _ (ends_membersText _ _)
        (ends_membersText _ _) (List.tail_eq_of_cons_eq hAfter)
      obtain ⟨hRest, hEnd⟩ := membersText_append_inj rest more x y hTail
      exact ⟨by rw [hName, hValue, hRest], hEnd⟩
end

/-- The text determines the document. -/
theorem text_injective : Function.Injective text := by
  intro left right h
  have hNil : Ends [] := by
    intro first more hEq
    cases hEq
  exact (text_append_inj left right [] [] hNil hNil (by simpa using h)).1

instance : DecidableEq Json := fun left right =>
  decidable_of_iff (text left = text right) text_injective.eq_iff

end Json
