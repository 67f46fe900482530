import VouchSpec.Library.Bytes
import VouchSpec.Library.Json
import VouchSpec.Library.Routine

/-! What the commerce code takes from its standard library: digests, the ISO
text of a time, and the exceptions that its operations raise. -/

namespace VouchSpec

/-- The exceptions an operation can end in. -/
inductive Raised where
  | inputRejected (message code : String)
  | valueError (message : String)
  | typeError
  | keyError
  | assertionError
  | unicodeEncodeError
  | integrityError
  | fileError
  | stripeError
  | indexError
  | attributeError
deriving DecidableEq, Repr

/-- An expected rejection with its stable machine-readable code. -/
abbrev rejected (message code : String) : Raised := .inputRejected message code

/-- The output of SHA-256 and HMAC-SHA256. -/
structure Digest where
  bytes : Bytes
  length_bytes : bytes.length = 32
deriving DecidableEq

namespace Digest

@[ext] theorem ext {left right : Digest} (h : left.bytes = right.bytes) : left = right := by
  cases left
  cases right
  cases h
  rfl

/-- Sixty-four lowercase hexadecimal digits. -/
def hexdigest (digest : Digest) : String := String.ofList (Bytes.hex digest.bytes)

theorem hexdigest_length (digest : Digest) : digest.hexdigest.toList.length = 64 := by
  simp [hexdigest, digest.length_bytes]

/-- The first digits of the hexadecimal digest. -/
def hexPrefix (digest : Digest) (count : Nat) : String :=
  String.ofList (digest.hexdigest.toList.take count)

end Digest

/-- What `datetime.fromisoformat` makes of a text. -/
inductive ParsedTime where
  | invalid
  | naive
  | aware (instant : Int)
deriving DecidableEq

/-- Library functions whose code is not part of this repository. Instants are
microseconds since the epoch; `isoformat` writes whole seconds in UTC, up to
the offset, and `fromisoformat` reads that text back. -/
structure Platform where
  sha256 : Bytes → Digest
  hmacSha256 : Bytes → Bytes → Digest
  isoformat : Int → String
  fromisoformat : String → ParsedTime
  fromisoformat_isoformat : ∀ seconds,
    fromisoformat (isoformat seconds ++ "+00:00") = .aware (seconds * 1000000)

namespace Platform

variable (p : Platform)

/-- The hexadecimal SHA-256 of a UTF-8 text. -/
def textDigest (characters : List Char) : String :=
  (p.sha256 (Bytes.utf8 characters)).hexdigest

/-- `value.isoformat(timespec="seconds").replace("+00:00", "Z")` of a UTC time. -/
def timestamp (instant : Int) : String := p.isoformat (instant / 1000000) ++ "Z"

/-- A trailing `Z` is read as the UTC offset. -/
def normalized (value : String) : String :=
  if value.toList.getLast? = some 'Z' then String.ofList value.toList.dropLast ++ "+00:00" else value

theorem normalized_append_z (value : String) : normalized (value ++ "Z") = value ++ "+00:00" := by
  have hChars : (value ++ "Z").toList = value.toList ++ ['Z'] := by
    rw [String.toList_append]
    rfl
  simp [normalized, hChars]

/-- The instant named by a text, or the rejection that `subject` and `code`
describe. -/
def parseTimestampAs (subject code value : String) : Except Raised Int :=
  match p.fromisoformat (normalized value) with
  | .invalid => .error (rejected (subject ++ " is invalid") code)
  | .naive => .error (rejected (subject ++ " requires a timezone") code)
  | .aware instant => .ok instant

/-- A formatted time is read back, truncated to its second. -/
theorem parseTimestampAs_timestamp (subject code : String) (instant : Int) :
    p.parseTimestampAs subject code (p.timestamp instant) =
      .ok (instant / 1000000 * 1000000) := by
  simp [parseTimestampAs, timestamp, normalized_append_z, p.fromisoformat_isoformat]

theorem timestamp_inj {first second : Int} :
    p.timestamp first = p.timestamp second ↔ first / 1000000 = second / 1000000 := by
  constructor
  · intro h
    have hParsed := congrArg (p.parseTimestampAs "" "") h
    rw [parseTimestampAs_timestamp, parseTimestampAs_timestamp] at hParsed
    have hScaled := Except.ok.inj hParsed
    omega
  · intro h
    rw [timestamp, timestamp, h]

end Platform

/-- A Python `datetime`: an instant, and whether it carries a timezone. -/
structure DateTime where
  instant : Int
  aware : Bool := true
deriving DecidableEq

/-- `timedelta(minutes=..)` in microseconds. -/
def minutes (count : Int) : Int := count * 60 * 1000000

end VouchSpec
