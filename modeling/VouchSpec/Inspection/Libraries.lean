import VouchSpec.Inspection.Snapshot
import VouchSpec.Signing.Toolkit

/-! What the inspector takes from its libraries: regular expressions, URLs, paths,
and the readers of YAML, JSON and TOML. -/

namespace VouchSpec

namespace Inspection

/-- A value that a reader returns; the other scalars by their text. -/
inductive Value where
  | null
  | text (text : Text)
  | int (number : Int)
  | scalar (shown : Text)
  | list (items : List Value)
  | mapping (entries : List (Value × Value))

namespace Value

def text? : Value → Option Text
  | .text value => some value
  | _ => none

/-- `mapping.get(name)`, where null and absent are one. -/
def get : Value → String → Value
  | .mapping entries, name =>
      match entries.find? fun entry => entry.1.text? = some (Text.ofString name) with
      | some entry => entry.2
      | none => .null
  | _, _ => .null

end Value

/-- A node of a YAML document before its values are built. -/
inductive Node where
  | scalar (tag value : String)
  | sequence (items : List Node)
  | mapping (pairs : List (Node × Node))

inductive Token where
  | anchor
  | alias
  | other
deriving DecidableEq

/-- How the YAML library fails: in a way the parser catches, or in another. -/
inductive YamlError where
  | caught (message : String)
  | other (raised : Raised)

/-- How the JSON and TOML readers and `str` fail: as their own error, by the depth of
the document, or as a plain `ValueError`. -/
inductive LoadError where
  | decode
  | recursion
  | value (message : String)

/-- A match of a regular expression, with its first group. -/
structure Match where
  start : Nat
  text : List Char
  group : List Char

/-- The parts of a URL; its host and port are looked up only later. -/
structure Url where
  scheme : String
  path : List Char
  hostname : Option (Option String)
  port : Option (Option Nat)

/-- The library functions. `urlparse` and the host and port of a URL can raise
`ValueError`, and `resolve` whatever the file system raises. -/
structure Libraries extends Unicode where
  lowerText : Text → Text
  finditer : String → List Char → List Match
  search : String → List Char → Bool
  urlparse : List Char → Option Url
  urlunsplit : String → String → List Char → List Char
  unquote : List Char → List Char
  resolve : List String → List Char → Except Raised (Option String)
  scanYaml : List Char → List Token × Option YamlError
  composeYaml : List Char → Except YamlError (Option Node)
  loadYaml : List Char → Except YamlError Value
  loadJson : List Char → Except LoadError Value
  loadToml : List Char → Except LoadError Value
  repr : Value → Except LoadError Text

/-- `str(value)`. -/
def Libraries.show (lib : Libraries) : Value → Except LoadError Text
  | .null => .ok (Text.ofString "None")
  | .text text => .ok text
  | .int number =>
      if number.natAbs < 10 ^ Json.maxDigits then .ok (Text.ofString (toString number))
      else .error (.value "Exceeds the limit (4300 digits) for integer string conversion")
  | .scalar shown => .ok shown
  | value => lib.repr value

end Inspection

end VouchSpec
