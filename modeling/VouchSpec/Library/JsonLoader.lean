import Mathlib.Data.List.Basic
import VouchSpec.Library.JsonReader
import VouchSpec.Library.Routine
import VouchSpec.Library.Text

/-! The loader of JSON documents: a text in tokens, and a machine with a stack of open
containers that goes over them. It stops at the first thing it does not take: what is not
JSON, a container too deep, an integer of too many digits, or a refused object. -/

/-- A loaded value; texts may hold lone surrogates, and a float stands by its literal. -/
inductive Loaded where
  | null
  | bool (value : Bool)
  | int (value : Int)
  | float (literal : List Char)
  | text (value : Text)
  | list (items : List Loaded)
  | dict (members : List (Text × Loaded))

namespace Loaded

/-- The member of an object, or nothing when it is absent or not an object. -/
def get? : Loaded → String → Option Loaded
  | dict members, name => (members.find? fun member => member.1 = Text.ofString name).map Prod.snd
  | _, _ => none

def text? : Loaded → Option Text
  | text value => some value
  | _ => none

/-- A text without surrogates. -/
def string? (value : Loaded) : Option String := value.text?.bind Text.encode?

/-- An integer that is not a boolean. -/
def int? : Loaded → Option Int
  | int value => some value
  | _ => none

theorem int?_eq_some {value : Loaded} {number : Int} : value.int? = some number ↔ value = .int number := by
  cases value <;> simp [int?]

/-- The object has exactly these member names. -/
def hasExactly (names : List String) : Loaded → Bool
  | dict members => members.all (fun member => names.any fun name => member.1 = Text.ofString name) &&
      names.all fun name => members.any fun member => member.1 = Text.ofString name
  | _ => false

inductive Token where
  | openObject
  | closeObject
  | openArray
  | closeArray
  | colon
  | comma
  | text (value : Text)
  | integer (negative : Bool) (digits : List Char)
  | constant (value : Loaded)
  | malformed

/-- The code point of four hexadecimal digits, which a low surrogate after a high one
completes. -/
def codePoint (characters : List Char) : Option (Point × List Char) := do
  let (code, rest) ← Json.readHex characters
  if 0xD800 ≤ code ∧ code < 0xDC00 then
    match rest with
    | slash :: letter :: more =>
        if slash = Json.backslash ∧ letter = 'u' then do
          let (low, after) ← Json.readHex more
          if 0xDC00 ≤ low ∧ low < 0xE000 then
            return (.char (Char.ofNat (0x10000 + 1024 * (code - 0xD800) + (low - 0xDC00))), after)
          else return (.surrogate code, rest)
        else return (.surrogate code, rest)
    | _ => return (.surrogate code, rest)
  else if 0xDC00 ≤ code ∧ code < 0xE000 then return (.surrogate code, rest)
  else return (.char (Char.ofNat code), rest)

/-- What follows a backslash. -/
def escape : List Char → Option (Point × List Char)
  | [] => none
  | letter :: rest =>
      match letter.toNat with
      | 34 => some (.char Json.quote, rest)
      | 92 => some (.char Json.backslash, rest)
      | 47 => some (.char '/', rest)
      | 98 => some (.char (Char.ofNat 8), rest)
      | 102 => some (.char (Char.ofNat 12), rest)
      | 110 => some (.char (Char.ofNat 10), rest)
      | 114 => some (.char (Char.ofNat 13), rest)
      | 116 => some (.char (Char.ofNat 9), rest)
      | 117 => codePoint rest
      | _ => none

/-- One code point of a string; control characters must be escaped. -/
def point : List Char → Option (Point × List Char)
  | [] => none
  | first :: rest =>
      if first = Json.backslash then escape rest
      else if first.toNat < 32 then none
      else some (.char first, rest)

/-- The text after an opening quote, of which the first characters are taken already. -/
def stringFrom : Nat → List Char → Option (Text × List Char)
  | _, [] => none
  | taken + 1, _ :: rest => stringFrom taken rest
  | 0, first :: rest =>
      if first = Json.quote then some ([], rest)
      else do
        let (next, after) ← point (first :: rest)
        let (more, final) ← stringFrom (rest.length - after.length) rest
        return (next :: more, final)

/-- The digits of an integer: a zero is one alone. -/
def leadingDigits (characters : List Char) : List Char :=
  if characters.head? = some '0' then ['0'] else characters.takeWhile Char.isDigit

/-- A point with digits after it. -/
def fraction : List Char → List Char
  | '.' :: rest => if rest.takeWhile Char.isDigit = [] then [] else '.' :: rest.takeWhile Char.isDigit
  | _ => []

/-- The sign of an exponent. -/
def sign : List Char → List Char
  | first :: _ => if first = '+' ∨ first = '-' then [first] else []
  | [] => []

def exponent : List Char → List Char
  | first :: rest =>
      let digits := (rest.drop (sign rest).length).takeWhile Char.isDigit
      if (first = 'e' ∨ first = 'E') ∧ digits ≠ [] then first :: sign rest ++ digits else []
  | [] => []

/-- A number, and what follows it. -/
def number (characters : List Char) : Option (Token × List Char) :=
  let negative := characters.head? = some '-'
  let body := if negative then characters.drop 1 else characters
  let digits := leadingDigits body
  let afterDigits := body.drop digits.length
  let decimals := fraction afterDigits
  let afterDecimals := afterDigits.drop decimals.length
  let power := exponent afterDecimals
  if digits = [] then none
  else if decimals = [] ∧ power = [] then some (.integer negative digits, afterDigits)
  else some (.constant (.float ((if negative then ['-'] else []) ++ digits ++ decimals ++ power)),
    afterDecimals.drop power.length)

/-- The words that stand for values. -/
def constants : List (List Char × Loaded) :=
  [("null".toList, .null), ("true".toList, .bool true), ("false".toList, .bool false), ("NaN".toList, .float "NaN".toList),
    ("Infinity".toList, .float "Infinity".toList), ("-Infinity".toList, .float "-Infinity".toList)]

/-- The token that a text begins with. -/
def token (characters : List Char) : Option (Token × List Char) :=
  match characters with
  | [] => none
  | first :: rest =>
      match first.toNat with
      | 123 => some (.openObject, rest)
      | 125 => some (.closeObject, rest)
      | 91 => some (.openArray, rest)
      | 93 => some (.closeArray, rest)
      | 58 => some (.colon, rest)
      | 44 => some (.comma, rest)
      | 34 => (stringFrom 0 rest).map fun found => (.text found.1, found.2)
      | _ =>
          match constants.find? fun constant => constant.1.isPrefixOf characters with
          | some (word, value) => some (.constant value, characters.drop word.length)
          | none => number characters

/-- The tokens of a text of which the first characters are taken already. What is no
token is the last one. -/
def tokensFrom : Nat → List Char → List Token
  | _, [] => []
  | taken + 1, _ :: rest => tokensFrom taken rest
  | 0, first :: rest =>
      if Json.isBlank first = true then tokensFrom 0 rest
      else
        match token (first :: rest) with
        | some (next, after) => next :: tokensFrom (rest.length - after.length) rest
        | none => [.malformed]

def tokens (characters : List Char) : List Token := tokensFrom 0 characters

/-- An open container with what is in it; an object with the name it has come to. -/
inductive Frame where
  | array (items : List Loaded)
  | object (members : List (Text × Loaded)) (name : Text)

/-- What the loader is at. -/
inductive Expectation where
  | value
  | valueOrEnd
  | nameOrEnd
  | name
  | colon (name : Text)
  | separator
  | nothing (value : Loaded)

/-- The open containers, innermost first, and what is expected. -/
structure Cursor where
  stack : List Frame := []
  expects : Expectation := .value

/-- Why a loader stops. -/
inductive Stop (Error : Type) where
  | syntaxError
  | recursionError
  | digitsError
  | refused (error : Error)

/-- A value is expected. -/
def Cursor.awaitsValue (cursor : Cursor) : Bool :=
  match cursor.expects with
  | .value => true
  | .valueOrEnd => true
  | _ => false

/-- A value where it belongs. -/
def place (stack : List Frame) (value : Loaded) : Cursor :=
  match stack with
  | [] => { stack := [], expects := .nothing value }
  | .array items :: rest => { stack := .array (items ++ [value]) :: rest, expects := .separator }
  | .object members name :: rest => { stack := .object (members ++ [(name, value)]) name :: rest, expects := .separator }

def intValue (negative : Bool) (digits : List Char) : Int :=
  if negative = true then -(Nat.ofDigitChars 10 digits 0 : Int) else Nat.ofDigitChars 10 digits 0

section
variable {Error : Type} (hook : List (Text × Loaded) → Except Error Unit)

/-- The first token of a value. -/
def begin (stack : List Frame) : Token → Except (Stop Error) Cursor
  | .openObject => .ok { stack := .object [] [] :: stack, expects := .nameOrEnd }
  | .openArray => .ok { stack := .array [] :: stack, expects := .valueOrEnd }
  | .text value => .ok (place stack (.text value))
  | .integer negative digits => .ok (place stack (.int (intValue negative digits)))
  | .constant value => .ok (place stack value)
  | _ => .error .syntaxError

/-- The end of the innermost container; the hook sees the members of an object. -/
def close (stack : List Frame) (token : Token) : Except (Stop Error) Cursor :=
  match stack, token with
  | .array items :: rest, .closeArray => .ok (place rest (.list items))
  | .object members _ :: rest, .closeObject =>
      match hook members with
      | .ok _ => .ok (place rest (.dict members))
      | .error error => .error (.refused error)
  | _, _ => .error .syntaxError

/-- One token. -/
def step (cursor : Cursor) (token : Token) : Except (Stop Error) Cursor :=
  match cursor.expects, token with
  | .value, token => begin cursor.stack token
  | .valueOrEnd, .closeArray => close hook cursor.stack .closeArray
  | .valueOrEnd, token => begin cursor.stack token
  | .nameOrEnd, .closeObject => close hook cursor.stack .closeObject
  | .nameOrEnd, .text name => .ok { cursor with expects := .colon name }
  | .name, .text name => .ok { cursor with expects := .colon name }
  | .colon name, .colon =>
      match cursor.stack with
      | .object members _ :: rest => .ok { stack := .object members name :: rest, expects := .value }
      | _ => .error .syntaxError
  | .separator, .comma =>
      match cursor.stack with
      | .array _ :: _ => .ok { cursor with expects := .value }
      | .object _ _ :: _ => .ok { cursor with expects := .name }
      | [] => .error .syntaxError
  | .separator, token => close hook cursor.stack token
  | _, _ => .error .syntaxError

/-- What a loader takes where a value is expected: containers up to a depth, and
integers up to a length. -/
def Allowed (depth : Nat) (cursor : Cursor) (token : Token) : Prop :=
  cursor.awaitsValue = true →
    match token with
    | .openObject => cursor.stack.length < depth
    | .openArray => cursor.stack.length < depth
    | .integer _ digits => digits.length ≤ Json.maxDigits
    | _ => True

/-- The check before a token. -/
def guarded (depth : Nat) (cursor : Cursor) (token : Token) : Except (Stop Error) Unit :=
  if cursor.awaitsValue = true then
    match token with
    | .openObject => require (cursor.stack.length < depth) .recursionError
    | .openArray => require (cursor.stack.length < depth) .recursionError
    | .integer _ digits => require (digits.length ≤ Json.maxDigits) .digitsError
    | _ => .ok ()
  else .ok ()

def stepWithin (depth : Nat) (cursor : Cursor) (token : Token) : Except (Stop Error) Cursor := do
  guarded depth cursor token
  step hook cursor token

def finish (cursor : Cursor) : Except (Stop Error) Loaded :=
  match cursor.expects with
  | .nothing value => .ok value
  | _ => .error .syntaxError

/-- The value of a text, whatever its depth and the length of its integers. -/
def read (characters : List Char) : Except (Stop Error) Loaded := (tokens characters).foldlM (step hook) {} >>= finish

/-- `json.loads(text, object_pairs_hook=hook)`, with so many containers in each other. -/
def load (depth : Nat) (characters : List Char) : Except (Stop Error) Loaded :=
  (tokens characters).foldlM (stepWithin hook depth) {} >>= finish

/-- Every token that a reading from a cursor comes to, up to where it ends or stops, is one
that the loader takes. -/
def ConfinedFrom (depth : Nat) (cursor : Cursor) (tokens : List Token) : Prop :=
  ∀ front token back after, tokens = front ++ token :: back → front.foldlM (step hook) cursor = .ok after →
    Allowed depth after token

/-- The reading of a text never comes to a container or an integer that is not taken. -/
def Confined (depth : Nat) (characters : List Char) : Prop := ConfinedFrom hook depth {} (tokens characters)

end

section
variable {Error : Type} {hook : List (Text × Loaded) → Except Error Unit} {depth : Nat} {cursor : Cursor}

/-- A stop at the bounds of the loader. -/
def Stop.AtBounds : Stop Error → Prop
  | .recursionError => True
  | .digitsError => True
  | _ => False

theorem guarded_of_allowed {token : Token} (h : Allowed depth cursor token) :
    (guarded depth cursor token : Except (Stop Error) Unit) = .ok () := by
  unfold guarded
  split
  · next hAwaits =>
      have hTaken := h hAwaits
      cases token with
      | openObject => exact require_of hTaken
      | openArray => exact require_of hTaken
      | integer negative digits => exact require_of hTaken
      | _ => rfl
  · rfl

theorem guarded_of_not_allowed {token : Token} (h : ¬ Allowed depth cursor token) :
    ∃ stop : Stop Error, guarded depth cursor token = .error stop ∧ stop.AtBounds := by
  unfold Allowed at h
  unfold guarded
  rw [Classical.not_imp] at h
  obtain ⟨hAwaits, hNot⟩ := h
  rw [if_pos hAwaits]
  cases token with
  | openObject => exact ⟨.recursionError, if_neg hNot, trivial⟩
  | openArray => exact ⟨.recursionError, if_neg hNot, trivial⟩
  | integer negative digits => exact ⟨.digitsError, if_neg hNot, trivial⟩
  | _ => exact absurd trivial hNot

theorem stepWithin_of_allowed {token : Token} (h : Allowed depth cursor token) :
    stepWithin hook depth cursor token = step hook cursor token := by
  rw [stepWithin, guarded_of_allowed h]
  rfl

section
variable {good : Stop Error → Prop}

theorem begin_raisesOnly (hSyntax : good .syntaxError) (stack : List Frame) (token : Token) :
    (begin stack token : Except (Stop Error) Cursor).RaisesOnly good := by
  cases token with
  | closeObject => exact Except.raisesOnly_error hSyntax
  | closeArray => exact Except.raisesOnly_error hSyntax
  | colon => exact Except.raisesOnly_error hSyntax
  | comma => exact Except.raisesOnly_error hSyntax
  | malformed => exact Except.raisesOnly_error hSyntax
  | _ => exact Except.raisesOnly_ok _

theorem finish_raisesOnly (hSyntax : good .syntaxError) (cursor : Cursor) :
    (finish cursor : Except (Stop Error) Loaded).RaisesOnly good := by
  unfold finish
  split
  · exact Except.raisesOnly_ok _
  · exact Except.raisesOnly_error hSyntax

variable (hSyntax : good .syntaxError)
  (hRefused : ∀ members error, hook members = .error error → good (.refused error))
include hSyntax hRefused

theorem close_raisesOnly (stack : List Frame) (token : Token) : (close hook stack token).RaisesOnly good := by
  unfold close
  split
  · exact Except.raisesOnly_ok _
  · split
    · exact Except.raisesOnly_ok _
    · next hHook => exact Except.raisesOnly_error (hRefused _ _ hHook)
  · exact Except.raisesOnly_error hSyntax

/-- A step without bounds stops at what is not JSON, or where the hook refuses an object. -/
theorem step_raisesOnly (cursor : Cursor) (token : Token) : (step hook cursor token).RaisesOnly good := by
  unfold step
  split
  · exact begin_raisesOnly hSyntax _ _
  · exact close_raisesOnly hSyntax hRefused _ _
  · exact begin_raisesOnly hSyntax _ _
  · exact close_raisesOnly hSyntax hRefused _ _
  · exact Except.raisesOnly_ok _
  · exact Except.raisesOnly_ok _
  · split
    · exact Except.raisesOnly_ok _
    · exact Except.raisesOnly_error hSyntax
  · split
    · exact Except.raisesOnly_ok _
    · exact Except.raisesOnly_ok _
    · exact Except.raisesOnly_error hSyntax
  · exact close_raisesOnly hSyntax hRefused _ _
  · exact Except.raisesOnly_error hSyntax

/-- So does a reading. -/
theorem steps_raisesOnly (tokens : List Token) :
    (tokens.foldlM (step hook) cursor >>= finish).RaisesOnly good := by
  induction tokens generalizing cursor with
  | nil => exact finish_raisesOnly hSyntax cursor
  | cons token rest ih =>
      rw [List.foldlM_cons, bind_assoc]
      exact (step_raisesOnly hSyntax hRefused cursor token).bind fun next _ => ih

theorem read_raisesOnly (characters : List Char) : (read hook characters).RaisesOnly good :=
  steps_raisesOnly hSyntax hRefused (tokens characters)

end

theorem finish_inBounds (cursor : Cursor) :
    (finish cursor : Except (Stop Error) Loaded).RaisesOnly fun stop => ¬ stop.AtBounds :=
  finish_raisesOnly id cursor

/-- A step on its own does not stop at the bounds. -/
theorem step_inBounds (cursor : Cursor) (token : Token) :
    (step hook cursor token).RaisesOnly fun stop => ¬ stop.AtBounds :=
  step_raisesOnly id (fun _ _ _ => id) cursor token

/-- A reading is confined when its first token is taken and the rest of it is confined. -/
theorem confinedFrom_cons {token : Token} {rest : List Token} : ConfinedFrom hook depth cursor (token :: rest) ↔
    Allowed depth cursor token ∧ ∀ next, step hook cursor token = .ok next → ConfinedFrom hook depth next rest := by
  constructor
  · intro confined
    refine ⟨confined [] token rest cursor rfl rfl, ?_⟩
    intro next hNext front later back after hRest hAfter
    refine confined (token :: front) later back after (by rw [hRest, List.cons_append]) ?_
    rw [List.foldlM_cons, hNext]
    exact hAfter
  · rintro ⟨hFirst, hRest⟩ front later back after hTokens hAfter
    cases front with
    | nil =>
        obtain ⟨rfl, rfl⟩ := List.cons.inj hTokens
        obtain rfl := Except.ok.inj hAfter
        exact hFirst
    | cons first more =>
        obtain ⟨rfl, hMore⟩ := List.cons.inj hTokens
        rw [List.foldlM_cons, Except.bind_eq_ok_iff] at hAfter
        obtain ⟨next, hNext, hAfter⟩ := hAfter
        exact hRest next hNext more later back after hMore hAfter

/-- The loader stops at its bounds exactly when the reading is not confined. -/
theorem steps_stop_iff (tokens : List Token) :
    (∃ stop, (tokens.foldlM (stepWithin hook depth) cursor >>= finish) = .error stop ∧ stop.AtBounds) ↔
      ¬ ConfinedFrom hook depth cursor tokens := by
  induction tokens generalizing cursor with
  | nil =>
      have hConfined : ConfinedFrom hook depth cursor [] := by
        intro front token back after hTokens
        simp at hTokens
      simp only [hConfined, not_true_eq_false, iff_false]
      rintro ⟨stop, hStop, hBounds⟩
      exact finish_inBounds cursor stop hStop hBounds
  | cons token rest ih =>
      rw [confinedFrom_cons, List.foldlM_cons]
      by_cases hAllowed : Allowed depth cursor token
      · rw [stepWithin_of_allowed hAllowed]
        cases hNext : step hook cursor token with
        | error error =>
            have hOwn := step_inBounds cursor token error hNext
            simp only [hAllowed, reduceCtorEq, false_implies, implies_true, and_self, not_true_eq_false, iff_false]
            rintro ⟨stop, hStop, hBounds⟩
            obtain rfl := Except.error.inj hStop
            exact hOwn hBounds
        | ok next =>
            simp only [hAllowed, true_and, Except.ok.injEq, forall_eq']
            exact ih
      · obtain ⟨stop, hStop, hBounds⟩ := @guarded_of_not_allowed Error depth cursor token hAllowed
        simp only [hAllowed, false_and, not_false_eq_true, iff_true]
        refine ⟨stop, ?_, hBounds⟩
        rw [stepWithin, hStop]
        rfl

/-- The loader of a text stops at its bounds exactly when the text is not confined. -/
theorem load_stop_iff (characters : List Char) :
    (∃ stop, load hook depth characters = .error stop ∧ stop.AtBounds) ↔ ¬ Confined hook depth characters :=
  steps_stop_iff (tokens characters)

theorem steps_of_confinedFrom {tokens : List Token} (h : ConfinedFrom hook depth cursor tokens) :
    tokens.foldlM (stepWithin hook depth) cursor = tokens.foldlM (step hook) cursor := by
  induction tokens generalizing cursor with
  | nil => rfl
  | cons token rest ih =>
      obtain ⟨hAllowed, hRest⟩ := confinedFrom_cons.mp h
      rw [List.foldlM_cons, List.foldlM_cons, stepWithin_of_allowed hAllowed]
      cases hNext : step hook cursor token with
      | error error => rfl
      | ok next => exact ih (hRest next hNext)

/-- The loader of a confined text gives its value. -/
theorem load_of_confined {characters : List Char} (h : Confined hook depth characters) :
    load hook depth characters = read hook characters := by
  rw [load, read, steps_of_confinedFrom h]

end

end Loaded
