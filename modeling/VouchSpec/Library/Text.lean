import Mathlib.Data.List.Basic
import VouchSpec.Library.Bytes

/-! Texts of code points, some of which may be surrogates without a partner, and
the functions that take characters apart into lines and words. -/

/-- A code point of a text: a character, or a surrogate on its own. -/
inductive Point where
  | char (c : Char)
  | surrogate (code : Nat)
deriving DecidableEq

abbrev Text := List Point

namespace Point

/-- A control character. -/
def isControl : Point → Bool
  | char c => c.toNat < 32
  | surrogate _ => false

def char? : Point → Option Char
  | char c => some c
  | surrogate _ => none

end Point

namespace Text

def ofString (value : String) : Text := value.toList.map Point.char

/-- The characters, when there is no surrogate among the code points. -/
def encode? (text : Text) : Option String := (text.mapM Point.char?).map String.ofList

theorem mapM_char (characters : List Char) : (characters.map Point.char).mapM Point.char? = some characters := by
  induction characters with
  | nil => rfl
  | cons c rest ih =>
      rw [List.map_cons, List.mapM_cons, ih]
      rfl

@[simp] theorem encode?_ofString (value : String) : encode? (ofString value) = some value := by
  rw [encode?, ofString, mapM_char]
  simp

theorem ofString_inj {left right : String} : ofString left = ofString right ↔ left = right := by
  constructor
  · intro h
    exact Option.some.inj ((encode?_ofString left).symm.trans ((congrArg encode? h).trans (encode?_ofString right)))
  · exact congrArg ofString

theorem map_char_of_mapM {text : Text} {characters : List Char} (h : text.mapM Point.char? = some characters) :
    text = characters.map Point.char := by
  induction text generalizing characters with
  | nil =>
      obtain rfl : [] = characters := Option.some.inj h
      rfl
  | cons point rest ih =>
      simp only [List.mapM_cons, bind, Option.bind_eq_some_iff, pure, Option.some.injEq] at h
      obtain ⟨c, hPoint, others, hOthers, rfl⟩ := h
      rw [List.map_cons, ← ih hOthers]
      cases point with
      | char other => rw [Option.some.inj hPoint]
      | surrogate code => cases hPoint

theorem encode?_eq_some {text : Text} {value : String} : encode? text = some value ↔ text = ofString value := by
  constructor
  · intro h
    obtain ⟨characters, hCharacters, rfl⟩ := Option.map_eq_some_iff.mp h
    rw [ofString, String.toList_ofList]
    exact map_char_of_mapM hCharacters
  · rintro rfl
    exact encode?_ofString value

end Text

namespace Lines

/-- The ends of lines that `str.splitlines` knows. -/
def isBreak (c : Char) : Bool :=
  (10 ≤ c.toNat && c.toNat ≤ 13) || (28 ≤ c.toNat && c.toNat ≤ 30) || c.toNat = 0x85 || c.toNat = 0x2028 ||
    c.toNat = 0x2029

/-- The lines of a text whose first line is begun; a carriage return takes the line
feed after it along. -/
def splitFrom (line : List Char) : List Char → List (List Char)
  | [] => if line = [] then [] else [line]
  | [c] => if isBreak c = true then [line] else [line ++ [c]]
  | c :: next :: rest =>
      if c.toNat = 13 ∧ next.toNat = 10 then line :: splitFrom [] rest
      else if isBreak c = true then line :: splitFrom [] (next :: rest)
      else splitFrom (line ++ [c]) (next :: rest)

/-- `str.splitlines`. -/
def split (characters : List Char) : List (List Char) := splitFrom [] characters

/-- `"\n".join(lines)`. -/
def join (lines : List (List Char)) : List Char := (lines.intersperse [Char.ofNat 10]).flatten

/-- `str.isspace` of one character. -/
def isSpace (c : Char) : Bool :=
  (9 ≤ c.toNat && c.toNat ≤ 13) || (28 ≤ c.toNat && c.toNat ≤ 32) || c.toNat = 0x85 || c.toNat = 0xA0 ||
    c.toNat = 0x1680 || (0x2000 ≤ c.toNat && c.toNat ≤ 0x200A) || c.toNat = 0x2028 || c.toNat = 0x2029 ||
    c.toNat = 0x202F || c.toNat = 0x205F || c.toNat = 0x3000

/-- `str.strip`, of characters that satisfy a predicate. -/
def stripWhile (drop : Char → Bool) (characters : List Char) : List Char :=
  ((characters.dropWhile drop).reverse.dropWhile drop).reverse

def strip (characters : List Char) : List Char := stripWhile isSpace characters

/-- `str.split()`: the words between white space, the last one being begun. -/
def wordsFrom (word : List Char) : List Char → List (List Char)
  | [] => if word = [] then [] else [word]
  | c :: rest =>
      if isSpace c = true then
        if word = [] then wordsFrom [] rest else word :: wordsFrom [] rest
      else wordsFrom (word ++ [c]) rest

def words (characters : List Char) : List (List Char) := wordsFrom [] characters

/-- `text in characters`. -/
def contains (characters text : List Char) : Bool := characters.tails.any fun rest => text.isPrefixOf rest

/-- The part before the first of a character, or everything. -/
def before (c : Char) (characters : List Char) : List Char := characters.takeWhile fun other => other ≠ c

/-- What follows the first of a character, or nothing. -/
def afterFirst (c : Char) (characters : List Char) : List Char := (characters.dropWhile fun other => other ≠ c).drop 1

/-- `value.rsplit(c, 1)[-1]`: the part after the last of a character, or everything. -/
def afterLast (c : Char) (characters : List Char) : List Char :=
  (characters.reverse.takeWhile fun other => other ≠ c).reverse

theorem takeWhile_stop {keep : Char → Bool} {c : Char} (hStop : keep c = false) (front rest : List Char) :
    (front ++ c :: rest).takeWhile keep = front.takeWhile keep := by
  induction front with
  | nil => simp [hStop]
  | cons first more ih =>
      rw [List.cons_append, List.takeWhile_cons, List.takeWhile_cons, ih]

theorem dropWhile_stop {drop : Char → Bool} {c : Char} (hStop : drop c = false) (front rest : List Char) :
    (front ++ c :: rest).dropWhile drop = front.dropWhile drop ++ c :: rest := by
  induction front with
  | nil => simp [hStop]
  | cons first more ih =>
      rw [List.cons_append, List.dropWhile_cons, List.dropWhile_cons, ih]
      split <;> rfl

theorem afterLast_append (c : Char) (front rest : List Char) : afterLast c (front ++ c :: rest) = afterLast c rest := by
  rw [afterLast, afterLast, List.reverse_append, List.reverse_cons, List.append_assoc, List.singleton_append,
    takeWhile_stop (by simp)]

theorem before_append {c : Char} {front : List Char} (h : c ∉ front) (rest : List Char) :
    before c (front ++ rest) = front ++ before c rest := by
  refine List.takeWhile_append_of_pos ?_
  intro other hOther
  simpa using fun hSame : other = c => h (hSame ▸ hOther)

theorem before_self {c : Char} {characters : List Char} (h : c ∉ characters) : before c characters = characters := by
  rw [← List.append_nil characters, before_append h]
  rfl

theorem before_of_mem {c : Char} {front : List Char} (h : c ∈ front) (rest : List Char) :
    before c (front ++ rest) = before c front := by
  obtain ⟨first, more, rfl⟩ := List.append_of_mem h
  rw [before, before, List.append_assoc, List.cons_append, takeWhile_stop (by simp), takeWhile_stop (by simp)]

/-- `str.rstrip`, of characters that satisfy a predicate. -/
def stripEnd (drop : Char → Bool) (characters : List Char) : List Char := (characters.reverse.dropWhile drop).reverse

theorem stripWhile_eq (drop : Char → Bool) (characters : List Char) :
    stripWhile drop characters = stripEnd drop (characters.dropWhile drop) := rfl

/-- What stays ends no strip before it. -/
theorem stripEnd_append {drop : Char → Bool} {c : Char} (hStop : drop c = false) (front rest : List Char) :
    stripEnd drop (front ++ c :: rest) = front ++ c :: stripEnd drop rest := by
  rw [stripEnd, stripEnd, List.reverse_append, List.reverse_cons, List.append_assoc, List.singleton_append,
    dropWhile_stop hStop, List.reverse_append, List.reverse_cons, List.reverse_reverse, List.append_assoc]
  rfl

end Lines
