import VouchSpec.Library.JsonReader
import VouchSpec.Library.Text

/-! Percent-decoding of texts, and the parts of a URL. A character that no escape can hold
splits a text into parts that are decoded apart from each other. -/

namespace Percent

/-- A character of several bytes that is not complete: the range of its next byte, the bytes
after that one, and the code so far. -/
structure Pending where
  low : Nat
  high : Nat
  more : Nat
  code : Nat

/-- The first byte of a character of several bytes. -/
def lead (byte : Nat) : Option Pending :=
  if 0xC2 ≤ byte ∧ byte ≤ 0xDF then some { low := 0x80, high := 0xBF, more := 0, code := byte - 0xC0 }
  else if byte = 0xE0 then some { low := 0xA0, high := 0xBF, more := 1, code := 0 }
  else if byte = 0xED then some { low := 0x80, high := 0x9F, more := 1, code := 0xD }
  else if 0xE1 ≤ byte ∧ byte ≤ 0xEF then some { low := 0x80, high := 0xBF, more := 1, code := byte - 0xE0 }
  else if byte = 0xF0 then some { low := 0x90, high := 0xBF, more := 2, code := 0 }
  else if byte = 0xF4 then some { low := 0x80, high := 0x8F, more := 2, code := 4 }
  else if 0xF1 ≤ byte ∧ byte ≤ 0xF3 then some { low := 0x80, high := 0xBF, more := 2, code := byte - 0xF0 }
  else none

/-- What stands for bytes that are no character. -/
def replacement : Char := Char.ofNat 0xFFFD

def flush (pending : Option Pending) : List Char := if pending.isSome = true then [replacement] else []

/-- A byte where a character begins. -/
def opening (byte : Nat) : List Char × Option Pending :=
  if byte < 0x80 then ([Char.ofNat byte], none)
  else
    match lead byte with
    | some pending => ([], some pending)
    | none => ([replacement], none)

/-- One more byte: what it completes, and what is pending. -/
def decodeByte (pending : Option Pending) (byte : Nat) : List Char × Option Pending :=
  match pending with
  | none => opening byte
  | some begun =>
      if begun.low ≤ byte ∧ byte ≤ begun.high then
        let code := 64 * begun.code + (byte - 0x80)
        if begun.more = 0 then ([Char.ofNat code], none)
        else ([], some { low := 0x80, high := 0xBF, more := begun.more - 1, code })
      else (replacement :: (opening byte).1, (opening byte).2)

/-- The byte of two hexadecimal digits. -/
def escaped : List Char → Option Nat
  | high :: low :: _ => do return 16 * (← Json.hexValue? high) + (← Json.hexValue? low)
  | _ => none

/-- The decoding of a text of which the first characters are taken already. -/
def unquoteFrom : Nat → Option Pending → List Char → List Char
  | _, pending, [] => flush pending
  | taken + 1, pending, _ :: rest => unquoteFrom taken pending rest
  | 0, pending, first :: rest =>
      match if first = '%' then escaped rest else none with
      | some byte => (decodeByte pending byte).1 ++ unquoteFrom 2 (decodeByte pending byte).2 rest
      | none => flush pending ++ first :: unquoteFrom 0 none rest

/-- `urllib.parse.unquote`. -/
def unquote (characters : List Char) : List Char := unquoteFrom 0 none characters

/-- A character that is no part of an escape. -/
def Separates (c : Char) : Prop := c ≠ '%' ∧ Json.hexValue? c = none

theorem escaped_append {c : Char} (hSeparates : Separates c) (front rest : List Char) :
    escaped (front ++ c :: rest) = escaped front := by
  cases front with
  | nil =>
      cases rest with
      | nil => rfl
      | cons next more => simp [escaped, hSeparates.2]
  | cons high front =>
      cases front with
      | nil => simp [escaped, hSeparates.2]
      | cons low front => rfl

theorem two_le_of_escaped {characters : List Char} {byte : Nat} (h : escaped characters = some byte) :
    2 ≤ characters.length := by
  match characters with
  | [] => cases h
  | [_] => cases h
  | _ :: _ :: _ => simp

theorem unquoteFrom_append {c : Char} (hSeparates : Separates c) {taken : Nat} {pending : Option Pending}
    {front : List Char} (hTaken : taken ≤ front.length) (rest : List Char) :
    unquoteFrom taken pending (front ++ c :: rest) = unquoteFrom taken pending front ++ c :: unquoteFrom 0 none rest := by
  induction front generalizing taken pending with
  | nil =>
      obtain rfl : taken = 0 := by simpa using hTaken
      simp [unquoteFrom, hSeparates.1]
  | cons first more ih =>
      cases taken with
      | succ taken =>
          simp only [List.cons_append, unquoteFrom]
          exact ih (by simpa using hTaken)
      | zero =>
          simp only [List.cons_append, unquoteFrom, escaped_append hSeparates]
          cases hByte : if first = '%' then escaped more else none with
          | none =>
              simp only
              rw [ih (Nat.zero_le _)]
              simp
          | some byte =>
              have hLength : 2 ≤ more.length := by
                split at hByte
                · exact two_le_of_escaped hByte
                · cases hByte
              simp only
              rw [ih hLength, List.append_assoc]

/-- Parts of a text are decoded apart from each other. -/
theorem unquote_append {c : Char} (hSeparates : Separates c) (front rest : List Char) :
    unquote (front ++ c :: rest) = unquote front ++ c :: unquote rest :=
  unquoteFrom_append hSeparates (Nat.zero_le _) rest

theorem unquote_of_not_mem {characters : List Char} (h : '%' ∉ characters) : unquote characters = characters := by
  induction characters with
  | nil => rfl
  | cons first rest ih =>
      rw [List.mem_cons, not_or] at h
      rw [unquote, unquoteFrom, if_neg (Ne.symm h.1)]
      exact congrArg (List.cons first) (ih h.2)

end Percent

namespace Urls

/-- What ends the authority of a URL. -/
def isDelimiter (c : Char) : Bool := c = '/' || c = '?' || c = '#'

def isLetter (c : Char) : Bool := (65 ≤ c.toNat && c.toNat ≤ 90) || (97 ≤ c.toNat && c.toNat ≤ 122)

/-- `scheme_chars`. -/
def isSchemeCharacter (c : Char) : Bool := isLetter c || c.isDigit || c = '+' || c = '-' || c = '.'

theorem isSchemeCharacter_ascii {c : Char} (h : isSchemeCharacter c = true) : c.toNat < 128 := by
  simp only [isSchemeCharacter, Bool.or_eq_true, decide_eq_true_eq] at h
  rcases h with (((hLetter | hDigit) | rfl) | rfl) | rfl
  · simp only [isLetter, Bool.or_eq_true, Bool.and_eq_true, decide_eq_true_eq] at hLetter
    omega
  · have hNine : '9'.toNat = 57 := rfl
    have hRange := (Char.isDigit_iff_toNat.mp hDigit).2
    omega
  · decide
  · decide
  · decide

theorem lower_schemeCharacter {c : Char} (h : isSchemeCharacter c = true) :
    isSchemeCharacter c.toLower = true ∧ c.toLower.toLower = c.toLower := by
  have hAll : ∀ n < 128, isSchemeCharacter (Char.ofNat n) = true →
      isSchemeCharacter (Char.ofNat n).toLower = true ∧ (Char.ofNat n).toLower.toLower = (Char.ofNat n).toLower := by
    decide +kernel
  have hCharacter := hAll c.toNat (isSchemeCharacter_ascii h)
  rw [Char.ofNat_toNat] at hCharacter
  exact hCharacter h

/-- The part before the first colon when it can be a scheme, and the rest. -/
def splitScheme (url : List Char) : List Char × List Char :=
  let scheme := Lines.before ':' url
  if ':' ∈ url ∧ (url.head?.any isLetter && scheme.all isSchemeCharacter) = true then
    (scheme, url.drop (scheme.length + 1))
  else ([], url)

/-- The schemes whose paths have parameters. -/
def usesParams : List String :=
  ["", "ftp", "hdl", "prospero", "http", "https", "shttp", "rtsp", "sip", "sips", "mms", "sftp", "tel", "rtspu"]

/-- A path without the parameters of its last segment. -/
def dropParams (path : List Char) : List Char :=
  let last := Lines.afterLast '/' path
  path.take (path.length - last.length) ++ Lines.before ';' last

/-- The path before a query and a fragment. -/
def pathOf (scheme rest : List Char) : List Char :=
  let path := Lines.before '?' (Lines.before '#' rest)
  if String.ofList (scheme.map Char.toLower) ∈ usesParams then dropParams path else path

structure Parts where
  scheme : List Char
  netloc : List Char := []
  path : List Char

/-- The characters that are left out of a URL. -/
def isIgnored (c : Char) : Bool := c.toNat = 9 || c.toNat = 10 || c.toNat = 13

def clean (url : List Char) : List Char := (url.dropWhile fun c => c.toNat ≤ 32).filter fun c => !isIgnored c

/-- `urllib.parse.urlparse`; an authority that is not accepted raises `ValueError`. -/
def urlparse (accepts : List Char → Bool) (url : List Char) : Option Parts :=
  let (scheme, rest) := splitScheme (clean url)
  if "//".toList.isPrefixOf rest = true then
    let netloc := (rest.drop 2).takeWhile fun c => !isDelimiter c
    if accepts netloc = true then
      some { scheme, netloc, path := pathOf scheme ((rest.drop 2).dropWhile fun c => !isDelimiter c) }
    else none
  else some { scheme, path := pathOf scheme rest }

/-- A text that is the scheme of a URL before a colon. -/
structure IsScheme (scheme : List Char) : Prop where
  letter : scheme.head?.any isLetter = true
  characters : scheme.all isSchemeCharacter = true

theorem IsScheme.not_mem {scheme : List Char} (isScheme : IsScheme scheme) {c : Char}
    (h : isSchemeCharacter c = false) : c ∉ scheme := by
  intro hMem
  have hCharacter := List.all_eq_true.mp isScheme.characters c hMem
  rw [h] at hCharacter
  cases hCharacter

/-- A path does not depend on the query. -/
theorem pathOf_query (scheme front query : List Char) :
    pathOf scheme (front ++ '?' :: query) = pathOf scheme front := by
  have hBefore : Lines.before '?' (Lines.before '#' (front ++ '?' :: query)) = Lines.before '?' (Lines.before '#' front) := by
    by_cases hFragment : '#' ∈ front
    · rw [Lines.before_of_mem hFragment]
    · rw [Lines.before_append hFragment, Lines.before_self hFragment]
      have hQuery : Lines.before '#' ('?' :: query) = '?' :: Lines.before '#' query := by simp [Lines.before]
      rw [hQuery, Lines.before, Lines.takeWhile_stop (by simp), Lines.before]
  rw [pathOf, pathOf, hBefore]

theorem isLetter_visible {c : Char} (h : isLetter c = true) : ¬ c.toNat ≤ 32 := by
  simp only [isLetter, Bool.or_eq_true, Bool.and_eq_true, decide_eq_true_eq] at h
  omega

/-- The text after a scheme, without the characters that are left out. -/
def kept (rest : List Char) : List Char := rest.filter fun c => !isIgnored c

theorem kept_append (front rest : List Char) : kept (front ++ rest) = kept front ++ kept rest := List.filter_append ..

theorem kept_cons {c : Char} (h : isIgnored c = false) (rest : List Char) : kept (c :: rest) = c :: kept rest := by
  simp [kept, h]

section
variable {scheme : List Char} (isScheme : IsScheme scheme)
include isScheme

theorem clean_scheme (rest : List Char) : clean (scheme ++ ':' :: rest) = scheme ++ ':' :: kept rest := by
  have hSchemeKept : kept scheme = scheme := by
    refine List.filter_eq_self.mpr fun c hMem => ?_
    cases hIgnored : isIgnored c with
    | false => rfl
    | true =>
        refine absurd hMem (isScheme.not_mem ?_)
        simp only [isIgnored, Bool.or_eq_true, decide_eq_true_eq] at hIgnored
        rw [← Char.ofNat_toNat c]
        rcases hIgnored with (hCode | hCode) | hCode <;> rw [hCode] <;> decide
  have hStart : (scheme ++ ':' :: rest).dropWhile (fun c => c.toNat ≤ 32) = scheme ++ ':' :: rest := by
    cases scheme with
    | nil => cases isScheme.letter
    | cons first more =>
        have hLetter : isLetter first = true := isScheme.letter
        rw [List.cons_append, List.dropWhile_cons_of_neg]
        simpa using isLetter_visible hLetter
  rw [clean, hStart]
  change kept _ = _
  rw [kept_append, hSchemeKept, kept_cons (by decide)]

theorem splitScheme_scheme (rest : List Char) : splitScheme (scheme ++ ':' :: rest) = (scheme, rest) := by
  have hBefore : Lines.before ':' (scheme ++ ':' :: rest) = scheme := by
    rw [Lines.before_append (isScheme.not_mem (by decide))]
    simp [Lines.before]
  have hHead : (scheme ++ ':' :: rest).head?.any isLetter = true := by
    cases scheme with
    | nil => cases isScheme.letter
    | cons first more => exact isScheme.letter
  rw [splitScheme]
  simp only [hBefore, hHead, isScheme.characters]
  simp [List.drop_append]

/-- The authority that follows a scheme, and what follows the authority. -/
theorem urlparse_authority (accepts : List Char → Bool) (rest : List Char) :
    urlparse accepts (scheme ++ ':' :: '/' :: '/' :: rest) =
      if accepts ((kept rest).takeWhile fun c => !isDelimiter c) = true then
        some { scheme, netloc := (kept rest).takeWhile fun c => !isDelimiter c
               path := pathOf scheme ((kept rest).dropWhile fun c => !isDelimiter c) }
      else none := by
  rw [urlparse, clean_scheme isScheme, kept_cons (by decide), kept_cons (by decide), splitScheme_scheme isScheme]
  rfl

theorem urlparse_scheme {accepts : List Char → Bool} {rest : List Char} {parts : Parts}
    (hParts : urlparse accepts (scheme ++ ':' :: rest) = some parts) : parts.scheme = scheme := by
  rw [urlparse, clean_scheme isScheme, splitScheme_scheme isScheme] at hParts
  simp only at hParts
  split at hParts
  · split at hParts
    · rw [← Option.some.inj hParts]
    · cases hParts
  · rw [← Option.some.inj hParts]

end

/-- Where the host and the port are looked up. -/
def hostInfo (rest : List Char) : List Char :=
  Lines.afterLast '@' ((kept rest).takeWhile fun c => !isDelimiter c)

/-- The path of what follows the slashes after a scheme. -/
def pathAfter (scheme rest : List Char) : List Char := pathOf scheme ((kept rest).dropWhile fun c => !isDelimiter c)

/-- The user before a host. -/
def userText : Option (List Char) → List Char
  | none => []
  | some user => user ++ ['@']

theorem kept_not_delimiter {characters : List Char} (h : ∀ c ∈ characters, isDelimiter c = false) :
    ∀ c ∈ kept characters, (!isDelimiter c) = true := by
  intro c hMem
  rw [h c (List.mem_of_mem_filter hMem)]
  rfl

theorem hostInfo_user {user : Option (List Char)} (hUser : ∀ u, user = some u → ∀ c ∈ u, isDelimiter c = false)
    (rest : List Char) : hostInfo (userText user ++ rest) = hostInfo rest := by
  cases user with
  | none => rfl
  | some u =>
      rw [hostInfo, userText, List.append_assoc, kept_append, List.singleton_append, kept_cons (by decide),
        List.takeWhile_append_of_pos (kept_not_delimiter (hUser u rfl)), List.takeWhile_cons_of_pos (by decide),
        Lines.afterLast_append, hostInfo]

theorem pathAfter_user {user : Option (List Char)} (hUser : ∀ u, user = some u → ∀ c ∈ u, isDelimiter c = false)
    (scheme rest : List Char) : pathAfter scheme (userText user ++ rest) = pathAfter scheme rest := by
  cases user with
  | none => rfl
  | some u =>
      rw [pathAfter, userText, List.append_assoc, kept_append, List.singleton_append, kept_cons (by decide),
        List.dropWhile_append_of_pos (kept_not_delimiter (hUser u rfl)), List.dropWhile_cons_of_pos (by decide), pathAfter]

theorem hostInfo_query (place query : List Char) : hostInfo (place ++ '?' :: query) = hostInfo place := by
  rw [hostInfo, kept_append, kept_cons (by decide), Lines.takeWhile_stop (by decide), hostInfo]

theorem pathAfter_query (scheme place query : List Char) :
    pathAfter scheme (place ++ '?' :: query) = pathAfter scheme place := by
  rw [pathAfter, kept_append, kept_cons (by decide), Lines.dropWhile_stop (by decide), pathOf_query, pathAfter]

/-- What a URL is parsed into, as far as it is looked at. -/
theorem urlparse_parts {accepts : List Char → Bool} {scheme rest : List Char} {parts : Parts}
    (isScheme : IsScheme scheme) (hParts : urlparse accepts (scheme ++ ':' :: '/' :: '/' :: rest) = some parts) :
    parts.scheme = scheme ∧ Lines.afterLast '@' parts.netloc = hostInfo rest ∧ parts.path = pathAfter scheme rest := by
  rw [urlparse_authority isScheme] at hParts
  split at hParts
  · rw [← Option.some.inj hParts]
    exact ⟨rfl, rfl, rfl⟩
  · cases hParts

end Urls
