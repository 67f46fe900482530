import VouchSpec.Library.Bytes

/-! SHA-256 and HMAC-SHA256. Words are numbers below `2 ^ 32`; the schedule of
a block is one number whose highest word comes first. -/

namespace Sha256

/-- Pass a number on after it has been evaluated. -/
def evaluated {Result : Type} (value : Nat) (next : Nat → Result) : Result :=
  match Nat.add value 1 with
  | 0 => next 0
  | same + 1 => next same

def word (value : Nat) : Nat := Nat.mod value 4294967296

/-- The exclusive or of three right rotations of a word. -/
def rotations (first second third value : Nat) : Nat :=
  evaluated (Nat.mul value 4294967297) fun doubled =>
    word (Nat.xor (Nat.xor (Nat.shiftRight doubled first) (Nat.shiftRight doubled second))
      (Nat.shiftRight doubled third))

/-- The exclusive or of two right rotations and a right shift of a word. -/
def rotationsAndShift (first second shift value : Nat) : Nat :=
  evaluated (Nat.mul value 4294967297) fun doubled =>
    Nat.xor (word (Nat.xor (Nat.shiftRight doubled first) (Nat.shiftRight doubled second)))
      (Nat.shiftRight value shift)

def roundConstants : List Nat :=
  [0x428a2f98, 0x71374491, 0xb5c0fbcf, 0xe9b5dba5, 0x3956c25b, 0x59f111f1, 0x923f82a4, 0xab1c5ed5,
   0xd807aa98, 0x12835b01, 0x243185be, 0x550c7dc3, 0x72be5d74, 0x80deb1fe, 0x9bdc06a7, 0xc19bf174,
   0xe49b69c1, 0xefbe4786, 0x0fc19dc6, 0x240ca1cc, 0x2de92c6f, 0x4a7484aa, 0x5cb0a9dc, 0x76f988da,
   0x983e5152, 0xa831c66d, 0xb00327c8, 0xbf597fc7, 0xc6e00bf3, 0xd5a79147, 0x06ca6351, 0x14292967,
   0x27b70a85, 0x2e1b2138, 0x4d2c6dfc, 0x53380d13, 0x650a7354, 0x766a0abb, 0x81c2c92e, 0x92722c85,
   0xa2bfe8a1, 0xa81a664b, 0xc24b8b70, 0xc76c51a3, 0xd192e819, 0xd6990624, 0xf40e3585, 0x106aa070,
   0x19a4c116, 0x1e376c08, 0x2748774c, 0x34b0bcb5, 0x391c0cb3, 0x4ed8aa4a, 0x5b9cca4f, 0x682e6ff3,
   0x748f82ee, 0x78a5636f, 0x84c87814, 0x8cc70208, 0x90befffa, 0xa4506ceb, 0xbef9a3f7, 0xc67178f2]

/-- The eight chaining words. -/
structure Chain where
  a : Nat
  b : Nat
  c : Nat
  d : Nat
  e : Nat
  f : Nat
  g : Nat
  h : Nat

def initial : Chain :=
  ⟨0x6a09e667, 0xbb67ae85, 0x3c6ef372, 0xa54ff53a, 0x510e527f, 0x9b05688c, 0x1f83d9ab, 0x5be0cd19⟩

/-- One of the sixteen words of the schedule. -/
def scheduleWord (schedule index : Nat) : Nat :=
  word (Nat.shiftRight schedule (Nat.mul 32 (Nat.sub 15 index)))

/-- The rounds of one block, one for each constant. -/
def rounds : List Nat → Nat → Nat → Nat → Nat → Nat → Nat → Nat → Nat → Nat → Chain
  | [], _, a, b, c, d, e, f, g, h => ⟨a, b, c, d, e, f, g, h⟩
  | constant :: rest, schedule, a, b, c, d, e, f, g, h =>
      evaluated (scheduleWord schedule 0) fun current =>
      evaluated (Nat.add (Nat.add (Nat.add (Nat.add h (rotations 6 11 25 e))
        (Nat.xor (Nat.land e f) (Nat.land (Nat.sub 4294967295 e) g))) constant) current) fun first =>
      evaluated (word (Nat.add (Nat.add first (rotations 2 13 22 a))
        (Nat.xor (Nat.xor (Nat.land a b) (Nat.land a c)) (Nat.land b c)))) fun newA =>
      evaluated (word (Nat.add d first)) fun newE =>
      evaluated (word (Nat.add (Nat.add
        (Nat.add current (rotationsAndShift 7 18 3 (scheduleWord schedule 1)))
        (scheduleWord schedule 9)) (rotationsAndShift 17 19 10 (scheduleWord schedule 14)))) fun next =>
      evaluated (Nat.add (Nat.mul (Nat.mod schedule (2 ^ 480)) 4294967296) next) fun moved =>
      rounds rest moved newA a b c newE e f g

def compress (chain : Chain) (block : Nat) : Chain :=
  match rounds roundConstants block chain.a chain.b chain.c chain.d chain.e chain.f chain.g
      chain.h with
  | ⟨a, b, c, d, e, f, g, h⟩ =>
      evaluated (word (chain.a + a)) fun a => evaluated (word (chain.b + b)) fun b =>
      evaluated (word (chain.c + c)) fun c => evaluated (word (chain.d + d)) fun d =>
      evaluated (word (chain.e + e)) fun e => evaluated (word (chain.f + f)) fun f =>
      evaluated (word (chain.g + g)) fun g => evaluated (word (chain.h + h)) fun h =>
      ⟨a, b, c, d, e, f, g, h⟩

/-- Compress the 512-bit blocks of a number, the highest first. -/
def compressAll : Nat → Chain → Nat → Chain
  | 0, chain, _ => chain
  | count + 1, chain, message =>
      evaluated (Nat.mod (Nat.shiftRight message (Nat.mul 512 count)) (2 ^ 512)) fun block =>
      compressAll count (compress chain block) message

/-- The number that bytes spell after a prefix. -/
def spelled : Bytes → Nat → Nat
  | [], value => value
  | byte :: rest, value =>
      evaluated (Nat.add (Nat.mul value 256) byte.toNat) fun next => spelled rest next

def bigEndian : Nat → Nat → Bytes
  | 0, _ => []
  | count + 1, value => UInt8.ofNat (value / 256 ^ count % 256) :: bigEndian count value

/-- The message, a one bit, zeros and the length in bits fill whole blocks. -/
def padded (message : Bytes) (count : Nat) : Nat :=
  (spelled message 0 * 256 + 128) * 256 ^ (64 * count - message.length - 1) + 8 * message.length

def digest (message : Bytes) : Bytes :=
  let count := (message.length + 8) / 64 + 1
  evaluated (padded message count) fun blocks =>
  match compressAll count initial blocks with
  | ⟨a, b, c, d, e, f, g, h⟩ => [a, b, c, d, e, f, g, h].flatMap (bigEndian 4)

theorem bigEndian_length (count value : Nat) : (bigEndian count value).length = count := by
  induction count with
  | zero => rfl
  | succ count ih => rw [bigEndian, List.length_cons, ih]

theorem evaluated_eq {Result : Type} (value : Nat) (next : Nat → Result) :
    evaluated value next = next value := rfl

theorem digest_length (message : Bytes) : (digest message).length = 32 := by
  simp [digest, evaluated_eq, bigEndian_length]

example : String.ofList (Bytes.hex (digest (Bytes.ascii "abc"))) =
    "ba7816bf8f01cfea414140de5dae2223b00361a396177a9cb410ff61f20015ad" := by decide +kernel

/-- A key of at most one block, filled up with zeros. -/
def blockKey (key : Bytes) : Bytes :=
  let short := if key.length ≤ 64 then key else digest key
  short ++ List.replicate (64 - short.length) 0

def hmac (key message : Bytes) : Bytes :=
  digest ((blockKey key).map (· ^^^ 0x5c) ++ digest ((blockKey key).map (· ^^^ 0x36) ++ message))

theorem hmac_length (key message : Bytes) : (hmac key message).length = 32 := digest_length _

example : String.ofList (Bytes.hex (hmac (Bytes.ascii "Jefe")
    (Bytes.ascii "what do ya want for nothing?"))) =
    "5bdcc146bf60754e6a042426089575c75a003f089d2739839dec58b964ec3843" := by decide +kernel

end Sha256
