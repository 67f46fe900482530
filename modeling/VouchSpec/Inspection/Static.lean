import VouchSpec.Inspection.Skill

/-! The static analysis of a snapshot: rules and indicators line by line, and the
dependencies that its manifests declare. -/

namespace VouchSpec

namespace Inspection

def textSuffixes : List String :=
  [".md", ".txt", ".py", ".pyi", ".sh", ".bash", ".zsh", ".ps1", ".js", ".jsx", ".ts", ".tsx", ".mjs", ".cjs",
    ".json", ".toml", ".yaml", ".yml", ".ini", ".cfg", ".conf", ".xml", ".html", ".css", ".go", ".rs", ".rb",
    ".php", ".java", ".kt", ".sql", ".dockerfile"]

def textNames : List String := ["Dockerfile", "Makefile", "requirements.txt", "Pipfile", "LICENSE", "NOTICE"]

def urlPattern : String := "https?://[^\\s)\\]>'\"`]+"

/-- The patterns of secrets, and whether a group of the match is kept. -/
def secretRedactions : List (String × Bool) :=
  [("\\bAKIA[0-9A-Z]\x7b16\x7d\\b", false),
    ("\\b(?:sk|ghp|github_pat)-[A-Za-z0-9_-]\x7b10,\x7d\\b", false),
    ("(?i)\\b(api[_-]?key|token|password|secret)\\s*[:=]\\s*(['\"]?)[^\\s,'\";]+", true),
    ("(?i)\\bBearer\\s+[A-Za-z0-9._~+/-]\x7b10,\x7d=*", false)]

inductive RuleSeverity where
  | critical
  | high
  | medium
  | low
deriving DecidableEq

def RuleSeverity.name : RuleSeverity → String
  | .critical => "critical"
  | .high => "high"
  | .medium => "medium"
  | .low => "low"

/-- `severity_order`. -/
def RuleSeverity.order : RuleSeverity → Nat
  | .critical => 0
  | .high => 1
  | .medium => 2
  | .low => 3

structure Rule where
  ruleId : String
  category : String
  severity : RuleSeverity
  message : String
  pattern : String
deriving DecidableEq

def rules : List Rule :=
  [⟨"CP001", "instruction-integrity", .high, "text appears to override higher-priority or prior instructions",
      "(?i)\\b(?:ignore|disregard|override)\\b.\x7b0,80\x7d\\b(?:previous|system|developer|higher[- ]priority|safety)\\b"⟩,
    ⟨"CP002", "secrets", .medium, "credential, secret, environment, or SSH access indicator",
      "(?i)(?:os\\.environ|\\bgetenv\\s*\\(|process\\.env|\\.env\\b|~[/\\\\]\\.ssh|\\bcredential|api[_-]?key|password\\s*[:=])"⟩,
    ⟨"CP003", "process", .medium, "process or shell execution indicator",
      "(?i)(?:subprocess\\.(?:run|Popen|call|check_output)|os\\.system\\s*\\(|child_process|shell\\s*=\\s*True|" ++
        "Invoke-Expression|\\biex\\s+)"⟩,
    ⟨"CP004", "supply-chain", .critical, "remote content appears to be piped into an interpreter",
      "(?i)(?:(?:curl|wget|Invoke-WebRequest).\x7b0,180\x7d(?:\\|\\s*(?:sh|bash|zsh|python|pwsh)|Invoke-Expression|\\biex\\b))"⟩,
    ⟨"CP005", "destructive-filesystem", .high, "recursive or forceful deletion indicator",
      "(?i)(?:\\brm\\s+-[^\\n]*[rf][^\\n]*\\s|Remove-Item[^\\n]*(?:-Recurse|-Force)|shutil\\.rmtree\\s*\\(|" ++
        "fs\\.rm\\s*\\([^\\n]*recursive\\s*:\\s*true)"⟩,
    ⟨"CP006", "privilege", .high, "privilege or broad permission change indicator",
      "(?i)(?:\\bsudo\\b|\\brunas\\b|chmod\\s+777|Set-ExecutionPolicy|takeown\\s+)"⟩,
    ⟨"CP007", "persistence", .high, "host persistence or autostart indicator",
      "(?i)(?:\\bcrontab\\b|\\bschtasks\\b|scheduled\\s+task|startup\\s+folder|systemctl\\s+enable|LaunchAgents)"⟩,
    ⟨"CP008", "dynamic-code", .high, "dynamic code evaluation indicator",
      "(?i)(?:\\beval\\s*\\(|\\bexec\\s*\\(|new\\s+Function\\s*\\(|compile\\s*\\([^\\n]*['\"]exec['\"])"⟩,
    ⟨"CP009", "obfuscation", .high, "encoded content and dynamic execution appear together",
      "(?i)(?:(?:base64|b64decode|fromBase64).\x7b0,160\x7d(?:eval|exec|Invoke-Expression|\\biex\\b))"⟩,
    ⟨"CP010", "network", .low, "outbound network client or download command indicator",
      "(?i)(?:requests\\.(?:get|post|put|delete)|urllib\\.request|httpx\\.|aiohttp\\.|\\bfetch\\s*\\(|\\bcurl\\b|" ++
        "\\bwget\\b|Invoke-WebRequest)"⟩,
    ⟨"CP011", "security-controls", .high, "security disabling or bypass instruction indicator",
      "(?i)(?:disable\\s+(?:antivirus|defender|firewall|security)|turn\\s+off\\s+(?:antivirus|defender|firewall)|" ++
        "bypass\\s+(?:policy|access control|captcha|rate limit))"⟩,
    ⟨"CP012", "exfiltration", .critical, "secret collection and outbound transfer appear together",
      "(?i)(?:(?:credential|api[_-]?key|password|secret|\\.ssh).\x7b0,160\x7d" ++
        "(?:upload|exfiltrat|send\\s+to|requests\\.post|\\bcurl\\b)|" ++
        "(?:upload|exfiltrat|send\\s+to|requests\\.post|\\bcurl\\b).\x7b0,160\x7d" ++
        "(?:credential|api[_-]?key|password|secret|\\.ssh))"⟩]

/-- The digest of the rules; case is ignored, in Unicode. -/
def staticRulesetSha256 (p : Platform) : String :=
  (p.sha256 (deterministicJson (.arr (rules.map fun rule =>
    .obj [("rule_id", .str rule.ruleId), ("category", .str rule.category), ("severity", .str rule.severity.name),
      ("message", .str rule.message), ("pattern", .str rule.pattern), ("flags", .int 34)])))).hexdigest

/-- A finding of a rule; a rule is one of those above. -/
structure StaticFinding where
  rule : Rule
  path : String
  line : Nat
  evidenceExcerpt : List Char
deriving DecidableEq

inductive SkipReason where
  | textSizeLimit
  | nonUtf8
deriving DecidableEq

structure SkippedFile where
  path : String
  reason : SkipReason
deriving DecidableEq

inductive Requirement where
  | filesystemRead
  | filesystemWrite
  | processSpawn
  | network
  | secrets
deriving DecidableEq

structure Evidence where
  path : String
  line : Nat
  excerpt : List Char
deriving DecidableEq

structure Dependency where
  ecosystem : String
  declaration : Text
  sourcePath : String
deriving DecidableEq

structure ManifestFailure where
  path : String
  manifest : String
  reason : String
deriving DecidableEq

/-- The name of a file. -/
def baseName (path : String) : List Char := Lines.afterLast '/' path.toList

section
variable (lib : Libraries)

/-- The suffix of a file with its dot, or nothing. -/
def suffixOf (path : String) : String :=
  let name := baseName path
  if '.' ∈ name then "." ++ lib.lower (String.ofList (Lines.afterLast '.' name)) else ""

/-- `_is_text_candidate`. -/
def isTextCandidate (path : String) (content : Bytes) : Bool :=
  String.ofList (baseName path) ∈ textNames || suffixOf lib path ∈ textSuffixes || !(content.take 4096).contains 0

/-- `re.sub` of a pattern by a text for each match. -/
def substitute (replacement : Match → List Char) (characters : List Char) : Nat → List Match → List Char
  | position, [] => characters.drop position
  | position, found :: rest =>
      (characters.drop position).take (found.start - position) ++ replacement found ++
        substitute replacement characters (found.start + found.text.length) rest

/-- `_redact`. -/
def redact (text : List Char) (limit : Nat) : List Char :=
  let cleaned := text.map fun c => if 32 ≤ c.toNat ∨ c.toNat = 9 then c else ' '
  let cleaned := secretRedactions.foldl (fun cleaned redaction =>
    substitute (fun found => if redaction.2 = true then found.group ++ "=<redacted>".toList else "<redacted>".toList)
      cleaned 0 (lib.finditer redaction.1 cleaned)) cleaned
  let cleaned := ((Lines.words (Lines.strip cleaned)).intersperse [' ']).flatten
  cleaned.take limit ++ if limit < cleaned.length then [Char.ofNat 0x2026] else []

/-- What the scan of the lines has come to. -/
structure Scan where
  findings : List StaticFinding := []
  perRule : String → Nat := fun _ => 0
  skipped : List SkippedFile := []
  referencedHosts : List String := []
  requirementEvidence : Requirement → List Evidence := fun _ => []
  requirementEvidenceLimits : List Requirement := []
  scriptLanguages : List String := []
  referencedHostLimitReached : Bool := false
  malformedUrlCount : Nat := 0
  findingLimitReached : Bool := false
  perRuleLimitReached : Bool := false

variable (limits : ScanLimits)

/-- `add_requirement`. -/
def Scan.addRequirement (scan : Scan) (kind : Requirement) (evidence : Evidence) : Scan :=
  if limits.maxRequirementEvidencePerKind ≤ (scan.requirementEvidence kind).length then
    { scan with requirementEvidenceLimits := kind :: scan.requirementEvidenceLimits }
  else
    { scan with
      requirementEvidence := Function.update scan.requirementEvidence kind (scan.requirementEvidence kind ++ [evidence]) }

/-- A URL of a line. -/
def Scan.addUrl (scan : Scan) (url : List Char) : Scan :=
  match (lib.urlparse url).bind Url.hostname with
  | none => { scan with malformedUrlCount := scan.malformedUrlCount + 1 }
  | some none => scan
  | some (some hostname) =>
      if hostname = "" then scan
      else
        let normalizedHostname := lib.lower hostname
        if normalizedHostname ∈ scan.referencedHosts then scan
        else if limits.maxReferencedHosts ≤ scan.referencedHosts.length then
          { scan with referencedHostLimitReached := true }
        else { scan with referencedHosts := scan.referencedHosts ++ [normalizedHostname] }

/-- A line that a rule is matched against. -/
def Scan.applyRule (path : String) (lineNumber : Nat) (line : List Char) (scan : Scan) (rule : Rule) : Scan :=
  if lib.search rule.pattern line = false then scan
  else if limits.maxFindings ≤ scan.findings.length then { scan with findingLimitReached := true }
  else if limits.maxFindingsPerRule ≤ scan.perRule rule.ruleId then { scan with perRuleLimitReached := true }
  else
    { scan with
      findings := scan.findings ++ [⟨rule, path, lineNumber, redact lib line 240⟩]
      perRule := Function.update scan.perRule rule.ruleId (scan.perRule rule.ruleId + 1) }

/-- The words that indicate a requirement. -/
def indicators : List (Requirement × List String) :=
  [(.filesystemRead, ["open(", "read_text", "read_bytes", "get-content", "cat "]),
    (.filesystemWrite, ["write_text", "write_bytes", "open(", "set-content", "out-file", "mkdir", "new-item"]),
    (.processSpawn, ["subprocess.", "os.system", "child_process", "bash(", "shell", "invoke-expression"]),
    (.network, ["requests.", "httpx.", "urllib.request", "aiohttp.", "fetch(", "curl ", "wget ", "invoke-webrequest"]),
    (.secrets, ["os.environ", "getenv(", "process.env", ".env", ".ssh", "credential"])]

def Scan.applyIndicator (lowered : List Char) (evidence : Evidence) (scan : Scan)
    (indicator : Requirement × List String) : Scan :=
  if indicator.2.any (fun token => Lines.contains lowered token.toList) = true then
    scan.addRequirement limits indicator.1 evidence
  else scan

/-- One line of a file. -/
def Scan.scanLine (path : String) (scan : Scan) (line : List Char) (lineNumber : Nat) : Scan :=
  let scan := (lib.finditer urlPattern line).foldl (fun scan found => scan.addUrl lib limits found.text) scan
  let scan := rules.foldl (Scan.applyRule lib limits path lineNumber line) scan
  let lowered := (lib.lower (String.ofList line)).toList
  let evidence : Evidence := { path, line := lineNumber, excerpt := redact lib line 140 }
  indicators.foldl (Scan.applyIndicator limits lowered evidence) scan

/-- The lines of a file from a number on. -/
def Scan.scanLines (path : String) (scan : Scan) (lineNumber : Nat) : List (List Char) → Scan
  | [] => scan
  | line :: rest => Scan.scanLines path (scan.scanLine lib limits path line lineNumber) (lineNumber + 1) rest

/-- The language of a file under `scripts/`. -/
def Scan.addLanguage (scan : Scan) (item : FileData) : Scan :=
  if "scripts/".toList.isPrefixOf item.path.toList = true then
    let stripped := String.ofList ((suffixOf lib item.path).toList.dropWhile fun c => c = '.')
    let language := if stripped = "" then "unknown" else stripped
    if language ∈ scan.scriptLanguages then scan
    else { scan with scriptLanguages := scan.scriptLanguages ++ [language] }
  else scan

/-- One file of the snapshot. -/
def Scan.scanFile (scan : Scan) (item : FileData) : Scan :=
  let scan := scan.addLanguage lib item
  if isTextCandidate lib item.path item.content = false then scan
  else if limits.maxTextBytes < item.size then
    { scan with skipped := scan.skipped ++ [⟨item.path, .textSizeLimit⟩] }
  else
    match Bytes.decodeUtf8 item.content with
    | none => { scan with skipped := scan.skipped ++ [⟨item.path, .nonUtf8⟩] }
    | some text => scan.scanLines lib limits item.path 1 (Lines.split text)

/-- What the manifests have come to. -/
structure Manifests where
  dependencies : List Dependency := []
  limitReached : Bool := false
  failures : List ManifestFailure := []

def Manifests.add (limit : Nat) (manifests : Manifests) (record : Dependency) : Manifests :=
  if record ∈ manifests.dependencies then manifests
  else if limit ≤ manifests.dependencies.length then { manifests with limitReached := true }
  else { manifests with dependencies := manifests.dependencies ++ [record] }

def Manifests.fail (manifests : Manifests) (path manifest reason : String) : Manifests :=
  { manifests with failures := manifests.failures ++ [⟨path, manifest, reason⟩] }

/-- The first three hundred code points of a declaration. -/
def declaration (ecosystem : String) (text : Text) (path : String) : Dependency :=
  { ecosystem, declaration := text.take 300, sourcePath := path }

/-- A line of a requirements file that declares something. -/
def isRequirement (value : List Char) : Bool :=
  value ≠ [] && !"#".toList.isPrefixOf value && !"-r".toList.isPrefixOf value && !"--".toList.isPrefixOf value

def Manifests.addRequirements (limit : Nat) (manifests : Manifests) (path : String) (text : List Char) : Manifests :=
  (((Lines.split text).map Lines.strip).filter isRequirement).foldl (fun manifests value =>
    manifests.add limit (declaration "python" (value.map Point.char) path)) manifests

/-- The dependencies of a project table, if they are a list. -/
def projectDependencies (data : Value) : Option (List Value) :=
  match (data.get "project", (data.get "project").get "dependencies") with
  | (.mapping _, .list values) => some values
  | (.mapping _, .null) => some []
  | (.mapping _, _) => none
  | (_, _) => some []

/-- A reader that failed: what it raises is caught unless it is a plain `ValueError`. -/
def Manifests.caught (manifests : Manifests) (path manifest : String) : LoadError → Except Raised Manifests
  | .value message => .error (.valueError message)
  | _ => .ok (manifests.fail path manifest "parse-failed")

def Manifests.addProject (limit : Nat) (manifests : Manifests) (path : String) (text : List Char) :
    Except Raised Manifests :=
  match lib.loadToml text with
  | .error error => manifests.caught path "pyproject.toml" error
  | .ok data =>
      match projectDependencies data with
      | none => .ok (manifests.fail path "pyproject.toml" "unexpected-dependency-shape")
      | some values =>
          .ok ((values.filterMap Value.text?).foldl (fun manifests value =>
            manifests.add limit (declaration "python" value path)) manifests)

/-- The entries of a table, by package and version; the entries before one whose text
cannot be made stay. -/
def Manifests.addPackages (limit : Nat) (ecosystem path : String) (manifests : Manifests) :
    List (Value × Value) → Manifests × Option LoadError
  | [] => (manifests, none)
  | (package, version) :: rest =>
      match lib.show package, lib.show version with
      | .ok packageText, .ok versionText =>
          Manifests.addPackages limit ecosystem path (manifests.add limit
            (declaration ecosystem (packageText ++ Text.ofString "@" ++ versionText) path)) rest
      | .error error, _ => (manifests, some error)
      | _, .error error => (manifests, some error)

/-- The three groups of a package file, up to one of another shape. -/
def Manifests.addGroups (limit : Nat) (path : String) (manifests : Manifests) (data : Value) :
    List String → Except Raised Manifests
  | [] => .ok manifests
  | group :: rest =>
      match data.get group with
      | .null =>
          if (fieldNames data).any (fun name => name.text? = some (Text.ofString group)) = true then
            .ok (manifests.fail path "package.json" ("unexpected-" ++ group ++ "-shape"))
          else Manifests.addGroups limit path manifests data rest
      | .mapping entries =>
          match manifests.addPackages lib limit "node" path entries with
          | (manifests, none) => Manifests.addGroups limit path manifests data rest
          | (manifests, some error) => manifests.caught path "package.json" error
      | _ => .ok (manifests.fail path "package.json" ("unexpected-" ++ group ++ "-shape"))

def Manifests.addPackageJson (limit : Nat) (manifests : Manifests) (path : String) (text : List Char) :
    Except Raised Manifests :=
  match lib.loadJson text with
  | .error error => manifests.caught path "package.json" error
  | .ok (.mapping entries) =>
      manifests.addGroups lib limit path (.mapping entries)
        ["dependencies", "devDependencies", "optionalDependencies"]
  | .ok _ => .ok (manifests.fail path "package.json" "unexpected-root-shape")

def Manifests.addCargo (limit : Nat) (manifests : Manifests) (path : String) (text : List Char) :
    Except Raised Manifests :=
  match lib.loadToml text with
  | .error error => manifests.caught path "Cargo.toml" error
  | .ok data =>
      match data.get "dependencies" with
      | .null => .ok manifests
      | .mapping entries =>
          match manifests.addPackages lib limit "rust" path entries with
          | (manifests, none) => .ok manifests
          | (manifests, some error) => manifests.caught path "Cargo.toml" error
      | _ => .ok (manifests.fail path "Cargo.toml" "unexpected-dependency-shape")

/-- One file of `_dependency_records`. -/
def Manifests.addFile (limit : Nat) (manifests : Manifests) (item : FileData) : Except Raised Manifests :=
  match Bytes.decodeUtf8 item.content with
  | none => .ok manifests
  | some text =>
      let name := baseName item.path
      if "requirements".toList.isPrefixOf name = true ∧ ".txt".toList.isSuffixOf name = true then
        .ok (manifests.addRequirements limit item.path text)
      else if name = "pyproject.toml".toList then manifests.addProject lib limit item.path text
      else if name = "package.json".toList then manifests.addPackageJson lib limit item.path text
      else if name = "Cargo.toml".toList then manifests.addCargo lib limit item.path text
      else .ok manifests

/-- `_dependency_records`, before the records are sorted. -/
def dependencyRecords (snapshot : Snapshot) (limit : Nat) : Except Raised Manifests :=
  snapshot.files.foldlM (Manifests.addFile lib limit) {}

/-- `analyze_static`'s result. -/
structure StaticAnalysis where
  findings : List StaticFinding
  skippedTextFiles : List SkippedFile
  filesInSnapshot : Nat
  findingLimitReached : Bool
  perRuleLimitReached : Bool
  dependencyLimitReached : Bool
  referencedHostLimitReached : Bool
  malformedUrlCount : Nat
  requirementEvidence : Requirement → List Evidence
  requirementEvidenceLimits : List Requirement
  dependencies : List Dependency
  manifestParseFailures : List ManifestFailure
  scriptLanguages : List String
  referencedHosts : List String

/-- The count of findings of a severity. -/
def StaticAnalysis.count (static : StaticAnalysis) (severity : RuleSeverity) : Nat :=
  static.findings.countP fun finding => finding.rule.severity = severity

/-- Findings by severity, then by path, line and rule. -/
def StaticFinding.key (finding : StaticFinding) : Nat ×ₗ String ×ₗ Nat ×ₗ String :=
  toLex (finding.rule.severity.order, toLex (finding.path, toLex (finding.line, finding.rule.ruleId)))

/-- The order of dependencies. -/
def Dependency.le (first second : Dependency) : Bool :=
  toLex (first.ecosystem, toLex (first.declaration.map pointCode, first.sourcePath)) ≤
    toLex (second.ecosystem, toLex (second.declaration.map pointCode, second.sourcePath))

/-- A tool that runs a shell is allowed. -/
def allowsShell (metadata : Value) : Bool :=
  match metadata.get "allowed-tools" with
  | .text tools =>
      ["bash", "shell", "powershell"].any fun token =>
        (lib.lowerText tools).tails.any fun rest => (Text.ofString token).isPrefixOf rest
  | _ => false

/-- The scan of all files, with what the metadata indicates. -/
def scanSnapshot (snapshot : Snapshot) (skill : ParsedSkill) : Scan :=
  let scan := snapshot.files.foldl (Scan.scanFile lib limits) {}
  if allowsShell lib skill.metadata = true then
    scan.addRequirement limits .processSpawn
      { path := "SKILL.md", line := 1, excerpt := "allowed-tools includes a shell-capable tool".toList }
  else scan

/-- `analyze_static`. -/
def analyzeStatic (snapshot : Snapshot) (skill : ParsedSkill) : Except Raised StaticAnalysis := do
  let scan := scanSnapshot lib limits snapshot skill
  let manifests ← dependencyRecords lib snapshot limits.maxDependencies
  return { findings := scan.findings.insertionSort fun first second => first.key ≤ second.key
           skippedTextFiles := scan.skipped
           filesInSnapshot := snapshot.files.length
           findingLimitReached := scan.findingLimitReached
           perRuleLimitReached := scan.perRuleLimitReached
           dependencyLimitReached := manifests.limitReached
           referencedHostLimitReached := scan.referencedHostLimitReached
           malformedUrlCount := scan.malformedUrlCount
           requirementEvidence := scan.requirementEvidence
           requirementEvidenceLimits := scan.requirementEvidenceLimits
           dependencies := manifests.dependencies.insertionSort fun first second => first.le second = true
           manifestParseFailures := manifests.failures
           scriptLanguages := scan.scriptLanguages.insertionSort fun first second => first ≤ second
           referencedHosts := scan.referencedHosts.insertionSort fun first second => first ≤ second }

end

end Inspection

end VouchSpec
