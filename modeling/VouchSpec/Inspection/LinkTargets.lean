import VouchSpec.Inspection.Skill
import VouchSpec.Library.Urls

/-! The targets of links that are absolute URLs, and what is left of them when they are
shown as external references. -/

namespace VouchSpec

namespace Inspection

/-- A match of the link pattern, from its label on, and the text after it. -/
structure Link where
  label : List Char
  target : List Char
  after : List Char

/-- The link pattern after an opening bracket. -/
def matchLink (rest : List Char) : Option Link :=
  let label := Lines.before ']' rest
  match rest.drop label.length with
  | _ :: opening :: more =>
      let target := Lines.before ')' more
      match more.drop target.length with
      | _ :: after => if opening = '(' ∧ target ≠ [] then some { label, target, after } else none
      | [] => none
  | _ => none

/-- The targets of the links of a line of which the first characters are taken already. -/
def linkTargetsFrom : Nat → List Char → List (List Char)
  | _, [] => []
  | taken + 1, _ :: rest => linkTargetsFrom taken rest
  | 0, first :: rest =>
      match if first = '[' then matchLink rest else none with
      | some link => link.target :: linkTargetsFrom (rest.length - link.after.length) rest
      | none => linkTargetsFrom 0 rest

def linkTargets (line : List Char) : List (List Char) := linkTargetsFrom 0 line

/-- `_hostinfo`: the host and the port of an authority without its user. -/
def hostAndPort (hostInfo : List Char) : List Char × List Char :=
  if '[' ∈ hostInfo then
    let bracketed := Lines.afterFirst '[' hostInfo
    (Lines.before ']' bracketed, Lines.afterFirst ':' (Lines.afterFirst ']' bracketed))
  else (Lines.before ':' hostInfo, Lines.afterFirst ':' hostInfo)

def portOf (hostInfo : List Char) : Option (Option Nat) :=
  let port := (hostAndPort hostInfo).2
  if port = [] then some none
  else if port.all Char.isDigit = true ∧ port.length ≤ Json.maxDigits ∧ Nat.ofDigitChars 10 port 0 ≤ 65535 then
    some (some (Nat.ofDigitChars 10 port 0))
  else none

section
variable (lib : Libraries)

/-- The host in lower case, but for the zone of an address. -/
def hostnameOf (hostInfo : List Char) : Option String :=
  let host := (hostAndPort hostInfo).1
  if host = [] then none
  else some (lib.lower (String.ofList (Lines.before '%' host)) ++ String.ofList (host.dropWhile fun c => c ≠ '%'))

/-- The result of `urlparse`, with the properties that are looked up in it. -/
def urlOf (parts : Urls.Parts) : Url where
  scheme := lib.lower (String.ofList parts.scheme)
  path := parts.path
  hostname := some (hostnameOf lib (Lines.afterLast '@' parts.netloc))
  port := portOf (Lines.afterLast '@' parts.netloc)

/-- The libraries find links, decode and parse URLs as the standard library does; which
authorities `urlparse` accepts is left open. -/
structure Standard (accepts : List Char → Bool) : Prop where
  links : ∀ line, (lib.finditer markdownLinkPattern line).map Match.group = linkTargets line
  unquote : lib.unquote = Percent.unquote
  urlparse : ∀ target, lib.urlparse target = (Urls.urlparse accepts target).map (urlOf lib)
  lower : ∀ scheme : List Char, scheme.all Urls.isSchemeCharacter = true →
    lib.lower (String.ofList scheme) = String.ofList (scheme.map Char.toLower)

/-- What a target adds to the external references: nothing, or a text. None when the target
is looked up in the skill, or recorded as it is. -/
def external? (target : List Char) : Option (Option (List Char)) :=
  if target = [] then some none
  else
    match lib.urlparse target with
    | none => none
    | some url =>
        if lib.lower url.scheme ∈ urlSchemes ∨ target.head? = some '#' then
          some (some (if url.scheme = "" then target.take 500 else sanitizeExternalTarget lib url))
        else none

end

/-- A character that `strip("<>")` takes off. -/
def isAngle (c : Char) : Bool := c = '<' || c = '>'

/-- A mark and what follows it, when there is such a part. -/
def marked (mark : Char) : Option (List Char) → List Char
  | none => []
  | some part => mark :: part

/-- A link target that is an absolute URL. -/
structure Target where
  lead : List Char
  scheme : List Char
  user : Option (List Char)
  place : List Char
  query : Option (List Char)
  fragment : Option (List Char)
  leads : ∃ blanks angles, lead = blanks ++ angles ∧ (∀ c ∈ blanks, Lines.isSpace c = true) ∧
    ∀ c ∈ angles, isAngle c = true
  isScheme : Urls.IsScheme scheme
  userEnds : ∀ u, user = some u → ∀ c ∈ u, Urls.isDelimiter c = false
  placeEnds : '?' ∉ place ∧ '#' ∉ place
  queryEnds : ∀ q, query = some q → '#' ∉ q

namespace Target

/-- What follows the user. -/
def rest (t : Target) : List Char := t.place ++ (marked '?' t.query ++ marked '#' t.fragment)

def text (t : Target) : List Char := t.lead ++ (t.scheme ++ ':' :: '/' :: '/' :: (Urls.userText t.user ++ t.rest))

/-- The scheme in lower case. -/
def schemeName (t : Target) : String := String.ofList (t.scheme.map Char.toLower)

/-- The target begins with `http://` or `https://` as it is. -/
def startsHttp (t : Target) : Bool := t.scheme = "http".toList || t.scheme = "https".toList

/-- Two targets with the same parts, of which only the characters of the user, the query
and the fragment differ. -/
structure Alike (first second : Target) : Prop where
  lead : first.lead = second.lead
  scheme : first.scheme = second.scheme
  user : first.user.isSome = second.user.isSome
  place : first.place = second.place
  query : first.query.isSome = second.query.isSome
  fragment : first.fragment.isSome = second.fragment.isSome

/-- A target that shows neither its user nor its query: a URL of a known scheme, whose user
ends where it does before the decoding. -/
structure Hidden (lib : Libraries) (t : Target) : Prop where
  scheme : t.schemeName ∈ urlSchemes
  parses : (lib.urlparse (normalizeLinkTarget lib t.text)).isSome = true
  user : t.schemeName ∈ ["http", "https"] → ∀ u, t.user = some u →
    (t.startsHttp = true ∨ ' ' ∉ u) ∧ ∀ c ∈ Percent.unquote u, Urls.isDelimiter c = false

end Target

/-- A target without what surrounds it. -/
def stripped (target : List Char) : List Char := Lines.stripWhile isAngle (Lines.strip target)

/-- The end of a target without what surrounds it. -/
def trimmed (rest : List Char) : List Char := Lines.stripEnd isAngle (Lines.stripEnd Lines.isSpace rest)

/-- The text before the first blank, unless blanks are kept. -/
def cutBlank (keeps : Bool) (target : List Char) : List Char := if keeps = true then target else Lines.before ' ' target

def keepsBlanks (target : List Char) : Bool :=
  "http://".toList.isPrefixOf target || "https://".toList.isPrefixOf target

theorem normalizeLinkTarget_eq (lib : Libraries) (target : List Char) : normalizeLinkTarget lib target =
    lib.unquote (Lines.before '#' (cutBlank (keepsBlanks (stripped target)) (stripped target))) := by
  have hAngle : stripped target = Lines.stripWhile (fun c => c = '<' || c = '>') (Lines.strip target) := rfl
  rw [normalizeLinkTarget]
  simp only [← hAngle]
  congr 2
  rw [cutBlank, keepsBlanks]
  by_cases hBlank : ' ' ∈ stripped target
  · by_cases hKeeps : "http://".toList.isPrefixOf (stripped target) = true ∨ "https://".toList.isPrefixOf (stripped target) = true
    · rw [if_neg (fun hCut => hCut.2 hKeeps), if_pos (by simpa using hKeeps)]
    · rw [if_pos ⟨hBlank, hKeeps⟩, if_neg (by simpa using hKeeps)]
  · rw [if_neg (fun hCut => hBlank hCut.1), Lines.before_self hBlank]
    split <;> rfl

theorem trimmed_append {c : Char} (hSpace : Lines.isSpace c = false) (hAngle : isAngle c = false) (front rest : List Char) :
    trimmed (front ++ c :: rest) = front ++ c :: trimmed rest := by
  rw [trimmed, Lines.stripEnd_append hSpace, Lines.stripEnd_append hAngle, trimmed]

namespace Target

variable {t : Target}

theorem scheme_ne_nil : t.scheme ≠ [] := by
  intro hNone
  have hLetter := t.isScheme.letter
  rw [hNone] at hLetter
  cases hLetter

theorem head_stays {drop : Char → Bool} (hLetters : ∀ c, Urls.isLetter c = true → drop c = false) (rest : List Char) :
    (t.scheme ++ rest).dropWhile drop = t.scheme ++ rest := by
  have hLetter := t.isScheme.letter
  cases hScheme : t.scheme with
  | nil => exact absurd hScheme scheme_ne_nil
  | cons first more =>
      rw [hScheme] at hLetter
      rw [List.cons_append, List.dropWhile_cons_of_neg]
      simp [hLetters first hLetter]

theorem isSpace_letter {c : Char} (h : Urls.isLetter c = true) : Lines.isSpace c = false := by
  simp only [Urls.isLetter, Bool.or_eq_true, Bool.and_eq_true, decide_eq_true_eq] at h
  simp only [Lines.isSpace, Bool.or_eq_false_iff, Bool.and_eq_false_iff, decide_eq_false_iff_not]
  omega

theorem isAngle_letter {c : Char} (h : Urls.isLetter c = true) : isAngle c = false := by
  cases hAngle : isAngle c with
  | false => rfl
  | true =>
      simp only [isAngle, Bool.or_eq_true, decide_eq_true_eq] at hAngle
      rcases hAngle with rfl | rfl
      · exact absurd h (by decide)
      · exact absurd h (by decide)

theorem stripped_text : stripped t.text = t.scheme ++ ':' :: '/' :: '/' :: (Urls.userText t.user ++ trimmed t.rest) := by
  obtain ⟨blanks, angles, hLead, hBlanks, hAngles⟩ := t.leads
  have hAngleSpace : ∀ c, isAngle c = true → Lines.isSpace c = false := by
    intro c hAngle
    simp only [isAngle, Bool.or_eq_true, decide_eq_true_eq] at hAngle
    rcases hAngle with rfl | rfl <;> decide
  have hFront : t.text.dropWhile Lines.isSpace =
      angles ++ (t.scheme ++ ':' :: '/' :: '/' :: (Urls.userText t.user ++ t.rest)) := by
    rw [text, hLead, List.append_assoc, List.dropWhile_append_of_pos hBlanks]
    cases angles with
    | nil => exact head_stays (fun _ => isSpace_letter) _
    | cons first more =>
        rw [List.cons_append, List.dropWhile_cons_of_neg]
        simp [hAngleSpace first (hAngles first List.mem_cons_self)]
  -- The end of the authority's user, or the slashes, stop what is stripped at the end.
  have hEnd : ∀ drop : Char → Bool, drop '/' = false → drop '@' = false → ∀ front rest : List Char,
      Lines.stripEnd drop (front ++ ':' :: '/' :: '/' :: (Urls.userText t.user ++ rest)) =
        front ++ ':' :: '/' :: '/' :: (Urls.userText t.user ++ Lines.stripEnd drop rest) := by
    intro drop hSlash hAt front rest
    cases t.user with
    | none =>
        have hSame := Lines.stripEnd_append hSlash (front ++ [':', '/']) rest
        simpa [Urls.userText] using hSame
    | some u =>
        have hSame := Lines.stripEnd_append hAt (front ++ ':' :: '/' :: '/' :: u) rest
        simpa [Urls.userText] using hSame
  rw [stripped, Lines.strip, Lines.stripWhile_eq, Lines.stripWhile_eq, hFront, ← List.append_assoc,
    hEnd _ (by decide) (by decide), List.append_assoc, List.dropWhile_append_of_pos hAngles,
    head_stays (fun _ => isAngle_letter), hEnd _ (by decide) (by decide)]
  rfl

theorem before_scheme {c : Char} (hScheme : Urls.isSchemeCharacter c = false) (rest : List Char) :
    Lines.before c (t.scheme ++ rest) = t.scheme ++ Lines.before c rest :=
  Lines.before_append (t.isScheme.not_mem hScheme) rest

/-- A word before a colon and two slashes begins the target when it is the scheme. -/
theorem isPrefixOf_scheme {word : List Char} (hWord : ':' ∉ word) (rest : List Char) :
    (word ++ [':', '/', '/']).isPrefixOf (t.scheme ++ ':' :: '/' :: '/' :: rest) = decide (t.scheme = word) := by
  rw [Bool.eq_iff_iff, List.isPrefixOf_iff_prefix, decide_eq_true_eq]
  constructor
  · rintro ⟨more, hMore⟩
    have hBefore := congrArg (Lines.before ':') hMore
    rw [before_scheme (by decide), List.append_assoc, Lines.before_append hWord] at hBefore
    simpa [Lines.before] using hBefore.symm
  · rintro rfl
    exact ⟨rest, by simp⟩

theorem keepsBlanks_text (rest : List Char) :
    keepsBlanks (t.scheme ++ ':' :: '/' :: '/' :: rest) = t.startsHttp := by
  have hHttp := @isPrefixOf_scheme t "http".toList (by decide) rest
  have hHttps := @isPrefixOf_scheme t "https".toList (by decide) rest
  rw [keepsBlanks, startsHttp, ← hHttp, ← hHttps]
  rfl

theorem cutBlank_append {keeps : Bool} {front : List Char} (h : keeps = true ∨ ' ' ∉ front) (rest : List Char) :
    cutBlank keeps (front ++ rest) = front ++ cutBlank keeps rest := by
  cases keeps with
  | true => rfl
  | false =>
      have hFront : ' ' ∉ front := by simpa using h
      exact Lines.before_append hFront rest

/-- What follows the user once the fragment and what comes after a blank are cut. -/
def tail (t : Target) : List Char := Lines.before '#' (cutBlank t.startsHttp (trimmed t.rest))

theorem unquote_scheme (rest : List Char) :
    Percent.unquote (t.scheme ++ ':' :: rest) = t.scheme ++ ':' :: Percent.unquote rest := by
  rw [Percent.unquote_append ⟨by decide, by decide⟩, Percent.unquote_of_not_mem (t.isScheme.not_mem (by decide))]

theorem unquote_user (rest : List Char) : Percent.unquote (Urls.userText t.user ++ rest) =
    Urls.userText (t.user.map Percent.unquote) ++ Percent.unquote rest := by
  cases t.user with
  | none => rfl
  | some u =>
      rw [Urls.userText, List.append_assoc, List.singleton_append, Percent.unquote_append ⟨by decide, by decide⟩]
      simp [Urls.userText]

theorem not_mem_user {c : Char} (hDelimiter : Urls.isDelimiter c = true) : c ∉ Urls.userText t.user := by
  cases hUser : t.user with
  | none => simp [Urls.userText]
  | some u =>
      intro hMem
      rw [Urls.userText, List.mem_append, List.mem_singleton] at hMem
      rcases hMem with hMem | rfl
      · exact Bool.false_ne_true ((t.userEnds u hUser c hMem).symm.trans hDelimiter)
      · exact absurd hDelimiter (by decide)

section
variable {lib : Libraries} {accepts : List Char → Bool} (standard : Standard lib accepts)
include standard

theorem normalize_text : normalizeLinkTarget lib t.text = Percent.unquote (Lines.before '#'
    (cutBlank t.startsHttp (t.scheme ++ ':' :: '/' :: '/' :: (Urls.userText t.user ++ trimmed t.rest)))) := by
  rw [normalizeLinkTarget_eq, standard.unquote, stripped_text, keepsBlanks_text]

theorem normalize_scheme : ∃ rest, normalizeLinkTarget lib t.text = t.scheme ++ ':' :: rest := by
  rw [normalize_text standard, cutBlank_append (Or.inr (t.isScheme.not_mem (by decide))), before_scheme (by decide)]
  cases hKeeps : t.startsHttp with
  | true => exact ⟨_, unquote_scheme _⟩
  | false => exact ⟨_, unquote_scheme _⟩

/-- A user that no blank cuts stays in front of what follows it. -/
theorem normalize_user (hBlanks : ∀ u, t.user = some u → t.startsHttp = true ∨ ' ' ∉ u) :
    normalizeLinkTarget lib t.text = t.scheme ++ ':' :: '/' :: '/' ::
      (Urls.userText (t.user.map Percent.unquote) ++ Percent.unquote t.tail) := by
  have hBlank : t.startsHttp = true ∨ ' ' ∉ Urls.userText t.user := by
    cases hUser : t.user with
    | none => simp [Urls.userText]
    | some u => simpa [Urls.userText] using hBlanks u hUser
  have hScheme : ' ' ∉ t.scheme := t.isScheme.not_mem (by decide)
  have hFront : t.startsHttp = true ∨ ' ' ∉ t.scheme ++ ':' :: '/' :: '/' :: Urls.userText t.user := by
    simpa [hScheme] using hBlank
  have hHash : '#' ∉ t.scheme ++ ':' :: '/' :: '/' :: Urls.userText t.user := by
    simpa [t.isScheme.not_mem (show Urls.isSchemeCharacter '#' = false by decide)] using @not_mem_user t '#' (by decide)
  have hText : t.scheme ++ ':' :: '/' :: '/' :: (Urls.userText t.user ++ trimmed t.rest) =
      (t.scheme ++ ':' :: '/' :: '/' :: Urls.userText t.user) ++ trimmed t.rest := by simp
  rw [normalize_text standard, hText, cutBlank_append hFront, Lines.before_append hHash, List.append_assoc,
    List.cons_append, List.cons_append, List.cons_append, unquote_scheme]
  congr 2
  have hSlashes := Percent.unquote_append (c := '/') ⟨by decide, by decide⟩ ['/'] (Urls.userText t.user ++ t.tail)
  rw [unquote_user] at hSlashes
  exact hSlashes

end

/-- What comes after a number sign is cut off. -/
theorem before_cut {keeps : Bool} {front : List Char} (hFront : '#' ∉ front) (rest : List Char) :
    Lines.before '#' (cutBlank keeps (front ++ '#' :: rest)) = cutBlank keeps front := by
  have hWhole : ∀ more : List Char, Lines.before '#' (front ++ '#' :: more) = front := by
    intro more
    rw [Lines.before_append hFront]
    simp [Lines.before]
  cases keeps with
  | true => exact hWhole rest
  | false =>
      change Lines.before '#' (Lines.before ' ' _) = Lines.before ' ' front
      by_cases hBlank : ' ' ∈ front
      · rw [Lines.before_of_mem hBlank, Lines.before_self]
        exact fun hMem => hFront ((List.takeWhile_sublist _).subset hMem)
      · have hMark : Lines.before ' ' ('#' :: rest) = '#' :: Lines.before ' ' rest := by simp [Lines.before]
        rw [Lines.before_append hBlank, Lines.before_self hBlank, hMark, hWhole]

theorem tail_fragment {fragment : List Char} (hQuery : t.query = none) (hFragment : t.fragment = some fragment) :
    t.tail = cutBlank t.startsHttp t.place := by
  rw [tail, rest, hQuery, hFragment]
  change Lines.before '#' (cutBlank _ (trimmed (t.place ++ '#' :: fragment))) = _
  rw [trimmed_append (by decide) (by decide), before_cut t.placeEnds.2]

theorem tail_bare (hQuery : t.query = none) (hFragment : t.fragment = none) :
    t.tail = Lines.before '#' (cutBlank t.startsHttp (trimmed t.place)) := by
  rw [tail, rest, hQuery, hFragment]
  simp [marked]

/-- With a query, the place is whole and a question mark follows it, unless a blank cuts it. -/
theorem tail_query {query : List Char} (hQuery : t.query = some query) :
    if t.startsHttp = false ∧ ' ' ∈ t.place then t.tail = Lines.before ' ' t.place
    else ∃ more, t.tail = t.place ++ '?' :: more := by
  have hRest : trimmed t.rest = t.place ++ '?' :: trimmed (query ++ marked '#' t.fragment) := by
    rw [rest, hQuery]
    exact trimmed_append (by decide) (by decide) _ _
  rw [tail, hRest]
  cases t.startsHttp with
  | true => exact ⟨_, Lines.before_append t.placeEnds.2 _ |>.trans (by simp [Lines.before]; rfl)⟩
  | false =>
      by_cases hBlank : ' ' ∈ t.place
      · rw [if_pos ⟨rfl, hBlank⟩]
        change Lines.before '#' (Lines.before ' ' _) = _
        rw [Lines.before_of_mem hBlank, Lines.before_self]
        exact fun hMem => t.placeEnds.2 ((List.takeWhile_sublist _).subset hMem)
      · rw [if_neg (fun hCut => hBlank hCut.2)]
        change ∃ more, Lines.before '#' (Lines.before ' ' _) = _
        rw [Lines.before_append hBlank]
        exact ⟨_, Lines.before_append t.placeEnds.2 _ |>.trans (by simp [Lines.before]; rfl)⟩

/-- Host and path do not depend on the query and the fragment. -/
theorem tail_alike {first second : Target} (alike : Alike first second) :
    Urls.hostInfo (Percent.unquote first.tail) = Urls.hostInfo (Percent.unquote second.tail) ∧
      ∀ scheme, Urls.pathAfter scheme (Percent.unquote first.tail) =
        Urls.pathAfter scheme (Percent.unquote second.tail) := by
  have hStarts : first.startsHttp = second.startsHttp := by rw [startsHttp, startsHttp, alike.scheme]
  have hFragments := alike.fragment
  cases hQuery : first.query with
  | none =>
      have hOther : second.query = none := by simpa [hQuery] using alike.query.symm
      have hTail : first.tail = second.tail := by
        cases hFragment : first.fragment with
        | none =>
            have hNone : second.fragment = none := by simpa [hFragment] using hFragments.symm
            rw [tail_bare hQuery hFragment, tail_bare hOther hNone, hStarts, alike.place]
        | some fragment =>
            obtain ⟨other, hSome⟩ := Option.isSome_iff_exists.mp (hFragments ▸ Option.isSome_iff_exists.mpr ⟨_, hFragment⟩)
            rw [tail_fragment hQuery hFragment, tail_fragment hOther hSome, hStarts, alike.place]
      rw [hTail]
      exact ⟨rfl, fun _ => rfl⟩
  | some query =>
      obtain ⟨other, hOther⟩ := Option.isSome_iff_exists.mp (alike.query ▸ Option.isSome_iff_exists.mpr ⟨_, hQuery⟩)
      have hFirst := tail_query hQuery
      have hSecond := tail_query hOther
      rw [← hStarts, ← alike.place] at hSecond
      by_cases hCut : first.startsHttp = false ∧ ' ' ∈ first.place
      · rw [if_pos hCut] at hFirst hSecond
        rw [hFirst, hSecond]
        exact ⟨rfl, fun _ => rfl⟩
      · rw [if_neg hCut] at hFirst hSecond
        obtain ⟨more, hFirst⟩ := hFirst
        obtain ⟨others, hSecond⟩ := hSecond
        simp only [hFirst, hSecond, Percent.unquote_append (show Percent.Separates '?' from ⟨by decide, by decide⟩),
          Urls.hostInfo_query, Urls.pathAfter_query, implies_true, and_self]

section
variable {lib : Libraries} {accepts : List Char → Bool} (standard : Standard lib accepts)
include standard

/-- Targets that differ in their fragments only are normalized alike. -/
theorem normalize_fragment {first second : Target} (alike : Alike first second) (hUser : first.user = second.user)
    (hQuery : first.query = second.query) :
    normalizeLinkTarget lib first.text = normalizeLinkTarget lib second.text := by
  have hStarts : first.startsHttp = second.startsHttp := by rw [startsHttp, startsHttp, alike.scheme]
  have hFragments := alike.fragment
  cases hFragment : first.fragment with
  | none =>
      have hNone : second.fragment = none := by simpa [hFragment] using hFragments.symm
      rw [text, text, rest, rest, alike.lead, alike.scheme, hUser, alike.place, hQuery, hFragment, hNone]
  | some fragment =>
      obtain ⟨other, hSome⟩ := Option.isSome_iff_exists.mp (hFragments ▸ Option.isSome_iff_exists.mpr ⟨_, hFragment⟩)
      have hCut (t : Target) (f : List Char) (hF : t.fragment = some f) : normalizeLinkTarget lib t.text =
          Percent.unquote (cutBlank t.startsHttp
            (t.scheme ++ ':' :: '/' :: '/' :: (Urls.userText t.user ++ (t.place ++ marked '?' t.query)))) := by
        have hRest : trimmed t.rest = (t.place ++ marked '?' t.query) ++ '#' :: trimmed f := by
          rw [rest, hF, ← List.append_assoc]
          exact trimmed_append (by decide) (by decide) _ _
        have hQueryMark : '#' ∉ marked '?' t.query := by
          cases hQ : t.query with
          | none => simp [marked]
          | some q => simpa [marked] using t.queryEnds q hQ
        have hMark : '#' ∉ t.scheme ++ ':' :: '/' :: '/' :: (Urls.userText t.user ++ (t.place ++ marked '?' t.query)) := by
          simpa [t.isScheme.not_mem (show Urls.isSchemeCharacter '#' = false by decide), t.placeEnds.2, hQueryMark] using
            @not_mem_user t '#' (by decide)
        rw [normalize_text standard, hRest, ← before_cut hMark (trimmed f)]
        simp
      rw [hCut first fragment hFragment, hCut second other hSome, hStarts, alike.scheme, hUser, alike.place, hQuery]

theorem lower_scheme : lib.lower (String.ofList t.scheme) = t.schemeName ∧ lib.lower t.schemeName = t.schemeName := by
  have hLower := fun c => @Urls.lower_schemeCharacter c
  refine ⟨standard.lower _ t.isScheme.characters, ?_⟩
  rw [schemeName, standard.lower _ ?_, List.map_map]
  · congr 1
    exact List.map_congr_left fun c hMem => (hLower c (List.all_eq_true.mp t.isScheme.characters c hMem)).2
  · rw [List.all_map]
    exact List.all_eq_true.mpr fun c hMem => (hLower c (List.all_eq_true.mp t.isScheme.characters c hMem)).1

/-- The URL of a target. -/
theorem urlparse_target {url : Url} (hUrl : lib.urlparse (normalizeLinkTarget lib t.text) = some url) :
    ∃ parts, Urls.urlparse accepts (normalizeLinkTarget lib t.text) = some parts ∧ url = urlOf lib parts ∧
      url.scheme = t.schemeName := by
  rw [standard.urlparse, Option.map_eq_some_iff] at hUrl
  obtain ⟨parts, hParts, rfl⟩ := hUrl
  refine ⟨parts, hParts, rfl, ?_⟩
  obtain ⟨more, hMore⟩ := @normalize_scheme t lib accepts standard
  rw [hMore] at hParts
  rw [urlOf, Urls.urlparse_scheme t.isScheme hParts]
  exact (lower_scheme standard).1

theorem normalize_ne_nil : normalizeLinkTarget lib t.text ≠ [] := by
  obtain ⟨more, hMore⟩ := @normalize_scheme t lib accepts standard
  rw [hMore]
  simp

/-- A hidden target is shown as what its URL comes to. -/
theorem external_hidden {url : Url} (hidden : t.Hidden lib)
    (hUrl : lib.urlparse (normalizeLinkTarget lib t.text) = some url) :
    external? lib (normalizeLinkTarget lib t.text) = some (some (sanitizeExternalTarget lib url)) := by
  obtain ⟨parts, -, -, hScheme⟩ := urlparse_target standard hUrl
  have hName : t.schemeName ≠ "" := by
    have hNil := @scheme_ne_nil t
    simpa [schemeName] using hNil
  rw [external?, if_neg (normalize_ne_nil standard), hUrl]
  simp only [hScheme, (lower_scheme standard).2, hidden.scheme, true_or, if_true, if_neg hName]

/-- Alike targets that are hidden come to the same. -/
theorem sanitize_alike {first second : Target} {url other : Url} (alike : Alike first second)
    (hFirst : first.Hidden lib) (hSecond : second.Hidden lib)
    (hUrl : lib.urlparse (normalizeLinkTarget lib first.text) = some url)
    (hOther : lib.urlparse (normalizeLinkTarget lib second.text) = some other) :
    sanitizeExternalTarget lib url = sanitizeExternalTarget lib other := by
  obtain ⟨parts, hParts, rfl, hScheme⟩ := urlparse_target standard hUrl
  obtain ⟨others, hOthers, rfl, hOtherScheme⟩ := urlparse_target standard hOther
  have hNames : first.schemeName = second.schemeName := by rw [schemeName, schemeName, alike.scheme]
  by_cases hHttp : first.schemeName ∈ ["http", "https"]
  · have hUser := hFirst.user hHttp
    have hOtherUser := hSecond.user (hNames ▸ hHttp)
    rw [normalize_user standard fun u hU => (hUser u hU).1] at hParts
    rw [normalize_user standard fun u hU => (hOtherUser u hU).1] at hOthers
    obtain ⟨hPartsScheme, hHost, hPath⟩ := Urls.urlparse_parts first.isScheme hParts
    obtain ⟨hOthersScheme, hOtherHost, hOtherPath⟩ := Urls.urlparse_parts second.isScheme hOthers
    have hDelimits (t : Target) (hEnds : ∀ u, t.user = some u → (t.startsHttp = true ∨ ' ' ∉ u) ∧
        ∀ c ∈ Percent.unquote u, Urls.isDelimiter c = false) :
        ∀ u, t.user.map Percent.unquote = some u → ∀ c ∈ u, Urls.isDelimiter c = false := by
      intro u hU
      obtain ⟨raw, hRaw, rfl⟩ := Option.map_eq_some_iff.mp hU
      exact (hEnds raw hRaw).2
    rw [Urls.hostInfo_user (hDelimits first hUser)] at hHost
    rw [Urls.hostInfo_user (hDelimits second hOtherUser)] at hOtherHost
    rw [Urls.pathAfter_user (hDelimits first hUser)] at hPath
    rw [Urls.pathAfter_user (hDelimits second hOtherUser)] at hOtherPath
    obtain ⟨hTailHost, hTailPath⟩ := tail_alike alike
    have hSame : urlOf lib parts = urlOf lib others := by
      rw [urlOf, urlOf, hHost, hOtherHost, hTailHost, hPath, hOtherPath, hPartsScheme, hOthersScheme, alike.scheme,
        hTailPath]
    rw [hSame]
  · -- The two other schemes are shown without anything that follows them.
    have hKnown : first.schemeName = "mailto" ∨ first.schemeName = "data" := by
      have hMem := hFirst.scheme
      simp only [urlSchemes, List.mem_cons, List.not_mem_nil, or_false] at hMem hHttp
      rcases hMem with h | h | h | h
      · exact absurd (Or.inl h) hHttp
      · exact absurd (Or.inr h) hHttp
      · exact Or.inl h
      · exact Or.inr h
    simp only [sanitizeExternalTarget, hScheme, hOtherScheme, (lower_scheme standard).2, ← hNames]
    rcases hKnown with hName | hName <;> rw [hName] <;> rfl

/-- Alike targets that are hidden are shown alike. -/
theorem external_alike {first second : Target} (alike : Alike first second) (hFirst : first.Hidden lib)
    (hSecond : second.Hidden lib) : ∃ shown, external? lib (normalizeLinkTarget lib first.text) = some shown ∧
      external? lib (normalizeLinkTarget lib second.text) = some shown := by
  obtain ⟨url, hUrl⟩ := Option.isSome_iff_exists.mp hFirst.parses
  obtain ⟨other, hOther⟩ := Option.isSome_iff_exists.mp hSecond.parses
  refine ⟨_, external_hidden standard hFirst hUrl, ?_⟩
  rw [sanitize_alike standard alike hFirst hSecond hUrl hOther]
  exact external_hidden standard hSecond hOther

end

end Target

end Inspection

end VouchSpec
