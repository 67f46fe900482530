import VouchSpec.Inspection.Libraries

/-! The parser of a skill: its frontmatter, the checks of its metadata, and the
references in its body. -/

namespace VouchSpec

namespace Inspection

inductive Severity where
  | error
  | warning
deriving DecidableEq

/-- A structural finding. -/
structure Finding where
  ruleId : String
  severity : Severity
  message : Text
  line : Option Nat := none
deriving DecidableEq

inductive ReferenceKind where
  | markdownLink
  | exampleLink
  | resourceCandidate
deriving DecidableEq

inductive ReferenceStatus where
  | present
  | missing
  | outsideRoot
  | unresolvedExample
  | unresolvedCandidate
deriving DecidableEq

structure LocalReference where
  path : List Char
  line : Nat
  kind : ReferenceKind
  status : ReferenceStatus
deriving DecidableEq

/-- `ParsedSkill`, without the body, which nothing looks at afterwards. -/
structure ParsedSkill where
  metadata : Value := .mapping []
  structuralFindings : List Finding
  localReferences : List LocalReference := []
  externalReferences : List (List Char) := []

def Finding.isError (finding : Finding) : Bool := finding.severity = .error

def ParsedSkill.structureValid (parsed : ParsedSkill) : Bool := !parsed.structuralFindings.any Finding.isError

def maxFrontmatterBytes : Nat := 65536
def maxYamlNodes : Nat := 1000
def maxYamlDepth : Nat := 24
def maxYamlAliases : Nat := 50

def knownFields : List String := ["name", "description", "license", "compatibility", "metadata", "allowed-tools"]

def markdownLinkPattern : String := "\\[[^\\]]*\\]\\(([^)]+)\\)"
def resourcePathPattern : String := "(?<![A-Za-z0-9_.-])((?:scripts|references|assets)/[A-Za-z0-9_.\\-/]+)"
def aliasPattern : String := "(?<![A-Za-z0-9_])\\*[A-Za-z0-9_-]+"
def examplePattern : String := "(?i)\\bexamples?\\b"

def urlSchemes : List String := ["http", "https", "mailto", "data"]

/-- Control characters but the tab become blanks. -/
def cleaned (text : Text) : Text :=
  text.map fun point => if point.isControl = true ∧ point ≠ .char (Char.ofNat 9) then .char ' ' else point

/-- `_finding`. -/
def findingOf (ruleId : String) (severity : Severity) (message : Text) (line : Option Nat) : Finding :=
  { ruleId, severity, message := (cleaned message).take 500, line }

/-- A finding with a message of its own, about no line. -/
def finding (ruleId : String) (severity : Severity) (message : String) : Finding :=
  findingOf ruleId severity (Text.ofString message) none

mutual
/-- `_walk_yaml`: the count of nodes, or the message of the `ValueError`. The tree
of a document without aliases has no node twice. -/
def Node.walk (depth : Nat) : Node → Except String Nat
  | .scalar tag value => do
      require (depth ≤ maxYamlDepth) ("YAML nesting exceeds " ++ shown maxYamlDepth)
      require (tag ≠ "tag:yaml.org,2002:merge") "YAML merge keys are not allowed"
      require (tag ≠ "tag:yaml.org,2002:timestamp") "implicit YAML timestamps are not allowed"
      require (tag = "tag:yaml.org,2002:float" → value.toLower ∉ [".nan", ".inf", "+.inf", "-.inf"])
        "non-finite YAML numbers are not allowed"
      return 1
  | .sequence items => do
      require (depth ≤ maxYamlDepth) ("YAML nesting exceeds " ++ shown maxYamlDepth)
      walkItems depth 1 items
  | .mapping pairs => do
      require (depth ≤ maxYamlDepth) ("YAML nesting exceeds " ++ shown maxYamlDepth)
      walkPairs depth 1 pairs

def walkItems (depth count : Nat) : List Node → Except String Nat
  | [] => .ok count
  | item :: rest => do
      let nodes ← item.walk (depth + 1)
      require (count + nodes ≤ maxYamlNodes) ("YAML node count exceeds " ++ shown maxYamlNodes)
      walkItems depth (count + nodes) rest

def walkPairs (depth count : Nat) : List (Node × Node) → Except String Nat
  | [] => .ok count
  | (key, value) :: rest => do
      require (key matches .scalar _ _) "complex YAML mapping keys are not allowed"
      let keyNodes ← key.walk (depth + 1)
      require (count + keyNodes ≤ maxYamlNodes) ("YAML node count exceeds " ++ shown maxYamlNodes)
      let valueNodes ← value.walk (depth + 1)
      require (count + keyNodes + valueNodes ≤ maxYamlNodes) ("YAML node count exceeds " ++ shown maxYamlNodes)
      walkPairs depth (count + keyNodes + valueNodes) rest
end

/-- The frontmatter as it is split off: the metadata, the body, the findings and the
line on which the body starts. -/
structure Frontmatter where
  metadata : Value := .mapping []
  body : List Char
  findings : List Finding
  bodyStartLine : Nat

/-- A line of three hyphens. -/
def isFence (line : List Char) : Bool := Lines.strip line = "---".toList

/-- `[a-z0-9]+(?:-[a-z0-9]+)*` up to the end, after a hyphen or the start when `begun`
is false. -/
def matchesNameFrom (begun : Bool) : Text → Bool
  | [] => begun
  | .char c :: rest =>
      if ('a' ≤ c ∧ c ≤ 'z') ∨ ('0' ≤ c ∧ c ≤ '9') then matchesNameFrom true rest
      else if c = '-' ∧ begun = true then matchesNameFrom false rest
      else false
  | .surrogate _ :: _ => false

/-- `NAME_PATTERN.fullmatch`. -/
def matchesName (name : Text) : Bool := matchesNameFrom false name

section
variable (lib : Libraries)

/-- What the YAML library makes of a frontmatter, with the checks between its phases. -/
def readYaml (raw : List Char) : Except YamlError Value := do
  let (tokens, ending) := lib.scanYaml raw
  require (∀ token ∈ tokens, token = .other) (.caught "YAML anchors and aliases are not allowed")
  match ending with
  | some error => throw error
  | none =>
      let node ← lib.composeYaml raw
      match node with
      | none => pure ()
      | some node =>
          match node.walk 0 with
          | .error message => throw (.caught message)
          | .ok _ => pure ()
      lib.loadYaml raw

/-- `_parse_frontmatter`. -/
def parseFrontmatter (text : List Char) : Except Raised Frontmatter :=
  match Lines.split text with
  | [] => return { body := text, bodyStartLine := 1
                   findings := [finding "AS001" .error "SKILL.md must start with YAML frontmatter"] }
  | first :: lines => do
      if isFence first = false then
        return { body := text, bodyStartLine := 1
                 findings := [finding "AS001" .error "SKILL.md must start with YAML frontmatter"] }
      let inside := lines.takeWhile fun line => !isFence line
      if inside.length = lines.length then
        return { body := text, bodyStartLine := 1
                 findings := [finding "AS002" .error "YAML frontmatter is not closed"] }
      let raw := Lines.join inside
      let body := Lines.join (lines.drop (inside.length + 1))
      let bodyStartLine := inside.length + 3
      if (Bytes.utf8 raw).length > maxFrontmatterBytes then
        return { body, bodyStartLine, findings :=
                   [finding "AS003" .error ("YAML frontmatter exceeds " ++ shown maxFrontmatterBytes ++ " bytes")] }
      if (lib.finditer aliasPattern raw).length > maxYamlAliases then
        return { body, bodyStartLine, findings :=
                   [finding "AS004" .error ("YAML alias count exceeds " ++ shown maxYamlAliases)] }
      match readYaml lib raw with
      | .error (.other raised) => throw raised
      | .error (.caught message) =>
          let safeMessage ← Except.ofOption .indexError (Lines.split message.toList).head?
          return { body, bodyStartLine, findings :=
                     [finding "AS005" .error ("YAML frontmatter is invalid: " ++
                       String.ofList (safeMessage.take 200))] }
      | .ok (.mapping entries) => return { metadata := .mapping entries, body, bodyStartLine, findings := [] }
      | .ok _ => return { body, bodyStartLine, findings :=
                            [finding "AS006" .error "YAML frontmatter must be a mapping"] }

/-- A finding when a condition holds. -/
def findingIf (condition : Bool) (ruleId message : String) : List Finding :=
  if condition = true then [finding ruleId .error message] else []

def nameFindings (parentName : String) : Value → List Finding
  | .text name =>
      if name = [] then [finding "AS101" .error "name is required and must be a string"]
      else
        findingIf (64 < name.length || !matchesName name) "AS102"
            "name must be 1-64 lowercase ASCII letters/numbers/hyphens with no edge or consecutive hyphen" ++
          findingIf (name ≠ Text.ofString parentName) "AS103" "name must match the parent directory name"
  | _ => [finding "AS101" .error "name is required and must be a string"]

def descriptionFindings : Value → List Finding
  | .text description =>
      if description = [] then [finding "AS104" .error "description is required and must be a non-empty string"]
      else findingIf (1024 < description.length) "AS105" "description must not exceed 1024 characters"
  | _ => [finding "AS104" .error "description is required and must be a non-empty string"]

/-- A field that is absent or a string. -/
def optionalTextFindings (ruleId message : String) : Value → List Finding
  | .null => []
  | value => findingIf value.text?.isNone ruleId message

def compatibilityFindings : Value → List Finding
  | .null => []
  | .text compatibility =>
      if compatibility = [] then [finding "AS107" .error "compatibility must be a non-empty string when provided"]
      else findingIf (500 < compatibility.length) "AS108" "compatibility must not exceed 500 characters"
  | _ => [finding "AS107" .error "compatibility must be a non-empty string when provided"]

def extraMetadataFindings : Value → List Finding
  | .null => []
  | .mapping entries =>
      findingIf (entries.any fun entry => entry.1.text?.isNone || entry.2.text?.isNone) "AS110"
        "metadata keys and values must all be strings"
  | _ => [finding "AS109" .error "metadata must be a mapping"]

/-- The names of the fields of a mapping. -/
def fieldNames : Value → List Value
  | .mapping entries => entries.map Prod.fst
  | _ => []

/-- The code of a code point, by which texts are ordered. -/
def pointCode : Point → Nat
  | .char c => c.toNat
  | .surrogate code => code

def textLe (first second : Text) : Bool := first.map pointCode ≤ second.map pointCode

/-- The fields that are not known, sorted. -/
def unknownFields (metadata : Value) : List Text :=
  (((fieldNames metadata).filterMap Value.text?).filter fun field =>
      !(knownFields.map Text.ofString).contains field).insertionSort fun first second => textLe first second = true

/-- A field name as a finding shows it. -/
def displayField (field : Text) : Text :=
  (field.map fun point => if point.isControl = true then .char ' ' else point).take 200

def unknownFieldFinding (field : Text) : Finding :=
  findingOf "AS112" .warning (Text.ofString "unrecognized frontmatter field: " ++ displayField field) none

/-- `_validate_metadata`. -/
def validateMetadata (metadata : Value) (parentName : String) : List Finding :=
  nameFindings parentName (metadata.get "name") ++
    descriptionFindings (metadata.get "description") ++
    optionalTextFindings "AS106" "license must be a string when provided" (metadata.get "license") ++
    compatibilityFindings (metadata.get "compatibility") ++
    extraMetadataFindings (metadata.get "metadata") ++
    optionalTextFindings "AS111" "allowed-tools must be a space-separated string" (metadata.get "allowed-tools") ++
    findingIf ((fieldNames metadata).any fun field => field.text?.isNone) "AS115"
      "frontmatter field names must be strings" ++
    (unknownFields metadata).map unknownFieldFinding

/-- `_normalize_link_target`. -/
def normalizeLinkTarget (rawTarget : List Char) : List Char :=
  let target := Lines.stripWhile (fun c => c = '<' || c = '>') (Lines.strip rawTarget)
  let target :=
    if ' ' ∈ target ∧ ¬ ("http://".toList.isPrefixOf target = true ∨ "https://".toList.isPrefixOf target = true) then
      Lines.before ' ' target
    else target
  lib.unquote (Lines.before '#' target)

/-- `_sanitize_external_target` of a URL with a scheme. -/
def sanitizeExternalTarget (url : Url) : List Char :=
  let scheme := lib.lower url.scheme
  if scheme = "http" ∨ scheme = "https" then
    match url.hostname, url.port with
    | some (some hostname), some port =>
        if hostname = "" then (scheme ++ ":<invalid>").toList
        else
          let host := lib.lower hostname
          let displayHostname := if ':' ∈ hostname.toList then "[" ++ host ++ "]" else host
          let netloc :=
            match port with
            | some number => if number = 0 then displayHostname else displayHostname ++ ":" ++ shown number
            | none => displayHostname
          (lib.urlunsplit scheme netloc (url.path.take 400)).take 500
    | _, _ => (scheme ++ ":<invalid>").toList
  else if scheme = "mailto" then "mailto:<redacted>".toList
  else if scheme = "data" then "data:<omitted>".toList
  else ((scheme ++ ":<unsupported>").toList).take 500

/-- A link target that is looked at, with its line. -/
structure Candidate where
  target : List Char
  line : Nat
  kind : ReferenceKind
deriving DecidableEq

/-- The candidates of a line, the links before the paths of resources. -/
def lineCandidates (exampleContext : Bool) (line : List Char) (lineNumber : Nat) : List Candidate :=
  let kind := if exampleContext = true then .exampleLink else .markdownLink
  ((lib.finditer markdownLinkPattern line).map fun found =>
      { target := normalizeLinkTarget lib found.group, line := lineNumber, kind }) ++
    (lib.finditer resourcePathPattern line).map fun found =>
      { target := normalizeLinkTarget lib found.group, line := lineNumber, kind := .resourceCandidate }

/-- Candidates are taken until the limit is reached, which is only noticed when one
more is found. -/
def takeCandidates (limit : Nat) (taken : List Candidate) : List Candidate → List Candidate × Bool
  | [] => (taken, false)
  | candidate :: rest =>
      if limit ≤ taken.length then (taken, true) else takeCandidates limit (taken ++ [candidate]) rest

/-- The lines of the body, outside and inside of fences. -/
def collectCandidates (limit : Nat) (taken : List Candidate) (inFence : Bool) (lineNumber : Nat) :
    List (List Char) → List Candidate × Bool
  | [] => (taken, false)
  | line :: rest =>
      let stripped := line.dropWhile Lines.isSpace
      if "```".toList.isPrefixOf stripped = true ∨ "~~~".toList.isPrefixOf stripped = true then
        collectCandidates limit taken (!inFence) (lineNumber + 1) rest
      else
        let exampleContext := inFence || lib.search examplePattern line
        match takeCandidates limit taken (lineCandidates lib exampleContext line lineNumber) with
        | (taken, true) => (taken, true)
        | (taken, false) => collectCandidates limit taken inFence (lineNumber + 1) rest

/-- What the references have come to. -/
structure References where
  locals : List LocalReference := []
  external : List (List Char) := []
  findings : List Finding := []
  seen : List Candidate := []

/-- A reference that leaves the skill. -/
def References.outside (references : References) (candidate : Candidate) (path : List Char) (message : String) :
    References :=
  { references with
    locals := references.locals ++ [⟨path.take 500, candidate.line, candidate.kind, .outsideRoot⟩]
    findings := references.findings ++
      [findingOf "AS201" .error (Text.ofString message) (some candidate.line)] }

def References.addExternal (references : References) (target : List Char) : References :=
  if references.external.contains target = true then references
  else { references with external := references.external ++ [target] }

/-- The status of a path in the skill. -/
def referenceStatus (available : Bool) : ReferenceKind → ReferenceStatus
  | .markdownLink => if available = true then .present else .missing
  | .exampleLink => if available = true then .present else .unresolvedExample
  | .resourceCandidate => if available = true then .present else .unresolvedCandidate

def References.inside (references : References) (candidate : Candidate) (relative : String) (available : Bool) :
    References :=
  let status := referenceStatus available candidate.kind
  { references with
    locals := references.locals ++ [⟨relative.toList, candidate.line, candidate.kind, status⟩]
    findings := references.findings ++
      if status = .missing then
        [findingOf "AS202" .warning (Text.ofString ("referenced file was not found: " ++ relative))
          (some candidate.line)]
      else [] }

/-- A target with forward slashes. -/
def normalizedTarget (target : List Char) : List Char := target.map fun c => if c.toNat = 92 then '/' else c

/-- The target is an absolute path, or a drive. -/
def isAbsolute (normalized : List Char) : Bool :=
  normalized.head? = some '/' || (normalized.drop 1).head? = some ':'

/-- A target that names nothing elsewhere is looked up in the skill. -/
def resolveReference (snapshot : Snapshot) (references : References) (candidate : Candidate) :
    Except Raised References := do
  let normalized := normalizedTarget candidate.target
  if isAbsolute normalized = true then
    return references.outside candidate normalized "file reference is absolute or outside the skill root"
  let resolved ← lib.resolve snapshot.root normalized
  match resolved with
  | none => return references.outside candidate normalized "file reference escapes the skill root"
  | some relative =>
      return references.inside candidate relative (snapshot.files.any fun item => item.path = relative)

/-- One candidate. -/
def References.step (snapshot : Snapshot) (references : References) (candidate : Candidate) :
    Except Raised References := do
  if candidate.target = [] ∨ candidate ∈ references.seen then return references
  let references := { references with seen := candidate :: references.seen }
  match lib.urlparse candidate.target with
  | none =>
      return references.outside candidate candidate.target "file reference is not a valid URI or local path"
  | some url =>
      if lib.lower url.scheme ∈ urlSchemes ∨ candidate.target.head? = some '#' then
        return references.addExternal
          (if url.scheme = "" then candidate.target.take 500 else sanitizeExternalTarget lib url)
      if url.scheme ≠ "" then
        return references.outside candidate candidate.target "file reference uses an unsupported URI scheme"
      resolveReference lib snapshot references candidate

/-- `_extract_references`. -/
def extractReferences (limits : ScanLimits) (body : List Char) (snapshot : Snapshot) (bodyStartLine : Nat) :
    Except Raised References := do
  let (candidates, reached) := collectCandidates lib limits.maxReferences [] false bodyStartLine (Lines.split body)
  let findings :=
    if reached = true then
      [finding "AS299" .error ("reference analysis exceeded the " ++ shown limits.maxReferences ++ " candidate limit")]
    else []
  candidates.foldlM (References.step lib snapshot) { findings }

/-- Errors before warnings, then by rule and line. -/
def Finding.key (finding : Finding) : Nat ×ₗ String ×ₗ Nat :=
  toLex (finding.isError.not.toNat, toLex (finding.ruleId, finding.line.getD 0))

/-- A list of findings that is too long ends in a finding about its length. -/
def capFindings (limits : ScanLimits) (findings : List Finding) : List Finding :=
  if limits.maxFindings < findings.length then
    findings.take (limits.maxFindings - 1) ++
      [finding "AS299" .error ("structural findings exceeded the " ++ shown limits.maxFindings ++ " finding limit")]
  else findings

/-- A skill whose text is not looked at. -/
def unreadable (ruleId message : String) : ParsedSkill :=
  { structuralFindings := [finding ruleId .error message] }

/-- All structural findings of a text, in order, with its references. -/
def readSkill (limits : ScanLimits) (snapshot : Snapshot) (text : List Char) :
    Except Raised (Value × List Finding × References) := do
  let frontmatter ← parseFrontmatter lib text
  let references ← extractReferences lib limits frontmatter.body snapshot frontmatter.bodyStartLine
  let findings :=
    frontmatter.findings ++ validateMetadata frontmatter.metadata snapshot.rootName ++
      (if Lines.strip frontmatter.body = [] then [finding "AS113" .warning "SKILL.md body is empty"] else []) ++
      (if 500 < (Lines.split text).length then
        [finding "AS114" .warning "SKILL.md exceeds the 500-line recommendation"] else []) ++
      references.findings
  return (frontmatter.metadata, findings.insertionSort fun first second => first.key ≤ second.key, references)

/-- `parse_skill`. -/
def parseSkill (limits : ScanLimits) (snapshot : Snapshot) : Except Raised ParsedSkill :=
  match snapshot.get? "SKILL.md" with
  | none => .ok (unreadable "AS000" "SKILL.md is required")
  | some skillFile =>
      match Bytes.decodeUtf8 skillFile.content with
      | none => .ok (unreadable "AS007" "SKILL.md must be valid UTF-8")
      | some text => do
          if Char.ofNat 0 ∈ text then return unreadable "AS008" "SKILL.md must not contain NUL bytes"
          let (metadata, findings, references) ← readSkill lib limits snapshot text
          return { metadata, structuralFindings := capFindings limits findings
                   localReferences := references.locals.insertionSort fun first second =>
                     toLex (first.path, first.line) ≤ toLex (second.path, second.line)
                   externalReferences := references.external.insertionSort fun first second => first ≤ second }

end

end Inspection

end VouchSpec
