import Mathlib.Algebra.Order.Ring.Rat
import VouchSpec.Library.Bytes

/-! JSON values as a JavaScript program sees them: texts of UTF-16 code units, the text
that a value turns into, and regular expressions of a fixed length. -/

namespace Script

abbrev Units := List UInt16

/-- The code units of a text. -/
def units (text : String) : Units :=
  text.toList.flatMap fun c =>
    if c.toNat < 0x10000 then [UInt16.ofNat c.toNat]
    else [UInt16.ofNat (0xD800 + (c.toNat - 0x10000) / 1024), UInt16.ofNat (0xDC00 + (c.toNat - 0x10000) % 1024)]

/-- A number that a JSON text can give. -/
inductive Number where
  | finite (value : ℚ)
  | infinite (negative : Bool)
deriving DecidableEq

inductive Value where
  | null
  | bool (value : Bool)
  | number (value : Number)
  | string (text : Units)
  | array (items : List Value)
  | object (members : List (Units × Value))

/-- What the language does to texts, numbers and JSON texts. -/
structure Host where
  toLowerCase : Units → Units
  numberText : Number → Units
  parse : Bytes → Option Value

namespace Value

/-- A member of an object; what is not an object has none. -/
def member? (name : String) : Value → Option Value
  | object members => (members.find? fun member => member.1 = units name).map Prod.snd
  | _ => none

/-- `value === text`. -/
def isText (text : String) : Value → Bool
  | string found => found = units text
  | _ => false

/-- `value === number`. -/
def isNumber (number : ℚ) : Value → Bool
  | .number (.finite found) => found = number
  | _ => false

/-- `texts.includes(value)`. -/
def isOneOf (texts : List String) (value : Value) : Bool := texts.any fun text => value.isText text

/-- `Number.isInteger(value)`, with the integer. -/
def integer? : Value → Option Int
  | .number (.finite found) => if found.den = 1 then some found.num else none
  | _ => none

variable (host : Host)

mutual
/-- `String(value)`; an object that carries a `toString` cannot be turned into text. -/
def text? : Value → Option Units
  | null => some (units "null")
  | bool true => some (units "true")
  | bool false => some (units "false")
  | number value => some (host.numberText value)
  | string text => some text
  | array items => (itemTexts? items).map (List.intercalate (units ","))
  | object members => if members.any fun member => member.1 = units "toString" then none else some (units "[object Object]")

def itemTexts? : List Value → Option (List Units)
  | [] => some []
  | null :: rest => (itemTexts? rest).map fun texts => [] :: texts
  | item :: rest => do
      let text ← text? item
      let texts ← itemTexts? rest
      return text :: texts
end

/-- The names of an object are these, in some order. -/
def hasKeys (names : List String) : Value → Bool
  | object members => decide ((members.map Prod.fst).Perm (names.map units))
  | _ => false

end Value

/-- A text with one code unit of each class. -/
def fits : List (UInt16 → Bool) → Units → Bool
  | [], [] => true
  | unitClass :: pattern, unit :: rest => unitClass unit && fits pattern rest
  | _, _ => false

def isDigit (unit : UInt16) : Bool := 48 ≤ unit && unit ≤ 57

/-- A hexadecimal digit in either case. -/
def isHex (unit : UInt16) : Bool := isDigit unit || (65 ≤ unit && unit ≤ 70) || (97 ≤ unit && unit ≤ 102)

/-- One of the code units of a text. -/
def among (choices : String) (unit : UInt16) : Bool := unit ∈ units choices

def hexDigits (count : Nat) : List (UInt16 → Bool) := List.replicate count isHex

/-- `/^\d+$/`. -/
def isDigits (text : Units) : Bool := text ≠ [] && text.all isDigit

/-- The number that digits spell. -/
def ofDigits (text : Units) : Nat := text.foldl (fun value unit => 10 * value + (unit.toNat - 48)) 0

end Script
