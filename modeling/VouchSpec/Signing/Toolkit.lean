import VouchSpec.Commerce.Standard
import VouchSpec.Library.Document

/-! What the signing code takes from its libraries: the JSON reader and the
Ed25519 signatures. -/

namespace VouchSpec

/-- Nothing or one line break after a document. -/
inductive Blank : List Char → Prop where
  | none : Blank []
  | line : Blank [Char.ofNat 10]

/-- The depth up to which documents are read back. -/
def readableDepth : Nat := 32

/-- `json.loads` on UTF-8 text with a hook that rejects duplicate names. What is
read has no duplicates and no overlong integers; a written text is read back. -/
structure Toolkit extends Platform where
  loads : Bytes → Option Json
  plain_of_loads : ∀ {bytes value}, loads bytes = some value → ∃ depth, value.Plain depth
  loads_text : ∀ {value rest}, value.Plain readableDepth → Blank rest →
    loads (Bytes.utf8 (value.text ++ rest)) = some value
  loads_asciiText : ∀ {value rest}, value.Plain readableDepth → Blank rest →
    loads (Bytes.utf8 (value.asciiText ++ rest)) = some value

private theorem Blank.skipBlanks {rest : List Char} (blank : Blank rest) : Json.skipBlanks rest = [] := by
  cases blank <;> rfl

/-- The reader of the library, beside any platform. -/
def Platform.toolkit (p : Platform) : Toolkit where
  toPlatform := p
  loads := Json.read
  plain_of_loads := Json.plain_of_read
  loads_text hPlain blank := Json.read_text hPlain blank.skipBlanks
  loads_asciiText hPlain blank := Json.read_asciiText hPlain blank.skipBlanks

/-- Ed25519 over raw public keys. -/
structure Ed25519 (Key : Type) where
  publicBytes : Key → Bytes
  publicBytes_length : ∀ key, (publicBytes key).length = 32
  sign : Key → Bytes → Bytes
  sign_length : ∀ key message, (sign key message).length = 64
  verify : Bytes → Bytes → Bytes → Bool

/-- Every signature verifies under its own key. -/
def Ed25519.Correct {Key : Type} (scheme : Ed25519 Key) : Prop :=
  ∀ key message, scheme.verify (scheme.publicBytes key) (scheme.sign key message) message = true

def Toolkit.standard : Toolkit := Platform.standard.toolkit

/-- A keyed digest in the place of the curve, to evaluate the model on. -/
def Ed25519.keyedDigest (p : Platform) : Ed25519 Bytes where
  publicBytes key := (p.sha256 key).bytes
  publicBytes_length key := (p.sha256 key).length_bytes
  sign key message := (p.hmacSha256 (p.sha256 key).bytes message).bytes ++
    (p.hmacSha256 (p.sha256 key).bytes (0 :: message)).bytes
  sign_length key message := by simp [Digest.length_bytes]
  verify publicKey signature message := signature = (p.hmacSha256 publicKey message).bytes ++
    (p.hmacSha256 publicKey (0 :: message)).bytes

theorem Ed25519.keyedDigest_correct (p : Platform) : (Ed25519.keyedDigest p).Correct :=
  fun _ _ => decide_eq_true rfl

namespace Toolkit

variable (t : Toolkit)

/-- `_strict_json`. -/
def strictJson (raw : Bytes) (code : String) : Except Raised Json :=
  Except.ofOption (rejected "invalid strict JSON document" code) (t.loads raw)

end Toolkit

/-- `deterministic_json`. -/
def deterministicJson (value : Json) : Bytes := Bytes.utf8 value.sorted.text

/-- `deterministic_json(value) + b"\n"`. -/
def jsonLine (value : Json) : Bytes := deterministicJson value ++ [10]

theorem jsonLine_eq (value : Json) : jsonLine value = Bytes.utf8 (value.sorted.text ++ [Char.ofNat 10]) := by
  rw [jsonLine, deterministicJson, Bytes.utf8_append]
  rfl

theorem Toolkit.strictJson_deterministicJson (t : Toolkit) {value : Json} (hPlain : value.Plain readableDepth)
    (code : String) : t.strictJson (deterministicJson value) code = .ok value.sorted := by
  have hRead := t.loads_text hPlain.sorted Blank.none
  rw [List.append_nil] at hRead
  rw [strictJson, deterministicJson, hRead]
  rfl

theorem Toolkit.strictJson_jsonLine (t : Toolkit) {value : Json} (hPlain : value.Plain readableDepth)
    (code : String) : t.strictJson (jsonLine value) code = .ok value.sorted := by
  rw [strictJson, jsonLine_eq, t.loads_text hPlain.sorted Blank.line]
  rfl

end VouchSpec
