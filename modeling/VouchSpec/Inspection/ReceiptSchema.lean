import VouchSpec.Inspection.Receipt
import VouchSpec.Library.JsonSchema

/-! The schema of a receipt, as it is published. A date-time is a string: the checker
of that format is an optional part of the validator, which the package does not ask for. -/

namespace VouchSpec

namespace ReceiptSchema

open Schema

def digits (count : Nat) : Regex := .times count count (.one Char.isDigit)

def hexDigits (count : Nat) : Regex := .times count count (.one Bytes.isHexDigit)

/-- `^AS[0-9]{3}$` and `^CP[0-9]{3}$`. -/
def rulePattern (start : String) : Regex := Regex.anchored (.seq (.literal start) (digits 3))

/-- `^cpr_[0-9a-f]{24}$`. -/
def receiptIdPattern : Regex := Regex.anchored (.seq (.literal "cpr_") (hexDigits 24))

/-- `^capabilityproof-sorted-json-v1:.*not RFC 8785 JCS$` of a string of at most 300 characters. -/
def jsonProfilePattern : Regex :=
  Regex.anchored (.seq (.literal "capabilityproof-sorted-json-v1:")
    (.seq (.times 0 300 (.one fun c => c ≠ Char.ofNat 10)) (.literal "not RFC 8785 JCS")))

def sha256 : Schema := matching (Regex.anchored (hexDigits 64))

def path : Schema := text 1 1024

def dateTime : Schema := type [.string]

/-- A string of bounded length, or null. -/
def claim (most : Nat) : Schema := allOf [type [.string, .null], maxLength most]

def total (properties : List (String × Schema)) : Schema := record (properties.map Prod.fst) properties

theorem total_valid {properties : List (String × Schema)} {members : List (String × Json)}
    (hNames : members.map Prod.fst = properties.map Prod.fst) (hNodup : (properties.map Prod.fst).Nodup) :
    (total properties).valid (.obj members) = true ↔ ∀ pair ∈ members.zip properties, pair.2.2.valid pair.1.2 = true :=
  record_obj_valid (hNames ▸ List.prefix_rfl) hNodup fun _ hName => hNames ▸ hName

def structuralFinding : Schema :=
  record ["rule_id", "severity", "message"]
    [("rule_id", matching (rulePattern "AS")), ("severity", texts ["error", "warning"]), ("message", text 1 500),
      ("line", atLeast 1)]

def localReference : Schema :=
  total [("path", path), ("line", atLeast 1), ("kind", texts ["markdown-link", "example-link", "resource-candidate"]),
    ("status", texts ["present", "missing", "outside-root", "unresolved-example", "unresolved-candidate"])]

def staticSummary : Schema :=
  total [("critical", integer 0 500), ("high", integer 0 500), ("medium", integer 0 500), ("low", integer 0 500),
    ("total", integer 0 500)]

def staticFinding : Schema :=
  total [("rule_id", matching (rulePattern "CP")), ("category", text 1 100),
    ("severity", texts ["critical", "high", "medium", "low", "info"]), ("message", text 1 500), ("path", path),
    ("line", atLeast 1), ("evidence_excerpt", text 0 241), ("evidence_type", const (.str "static-text-match"))]

def skippedFile : Schema := total [("path", path), ("reason", texts ["text-size-limit", "non-utf8"])]

def coverage : Schema :=
  total [("files_in_snapshot", integer 0 1000), ("finding_limit_reached", type [.boolean]), ("max_findings", atLeast 1),
    ("per_rule_limit_reached", type [.boolean]), ("max_findings_per_rule", atLeast 1),
    ("dependency_limit_reached", type [.boolean]), ("max_dependencies", atLeast 1),
    ("referenced_host_limit_reached", type [.boolean]), ("max_referenced_hosts", atLeast 1),
    ("malformed_url_count", atLeast 0)]

def requirementEvidence : Schema := total [("path", path), ("line", atLeast 1), ("excerpt", text 0 141)]

def requirementSignal : Schema :=
  total [("status", texts ["indicated", "not-detected"]), ("evidence", list 20 requirementEvidence),
    ("evidence_limit_reached", type [.boolean]), ("max_evidence", atLeast 1),
    ("interpretation", const (.str "static indicator only; not observed runtime behavior"))]

def dependency : Schema :=
  total [("ecosystem", texts ["python", "node", "rust"]), ("declaration", text 1 300), ("source_path", path)]

def manifestParseFailure : Schema :=
  total [("path", path), ("manifest", texts ["pyproject.toml", "package.json", "Cargo.toml"]), ("reason", text 1 100)]

def evidenceLevel : Schema :=
  record ["level", "name", "status"]
    [("level", integer 0 6), ("name", text 1 100),
      ("status", texts ["completed", "completed-pass", "completed-fail", "partial", "not-run"]), ("evidence", text 1 300)]

def scanLimits : Schema :=
  total [("max_files", atLeast 1), ("max_entries", atLeast 1), ("max_directories", atLeast 1), ("max_depth", atLeast 1),
    ("max_path_bytes", atLeast 1), ("max_references", atLeast 1), ("max_dependencies", atLeast 1),
    ("max_referenced_hosts", atLeast 1), ("max_requirement_evidence_per_kind", atLeast 1), ("max_total_bytes", atLeast 1),
    ("max_file_bytes", atLeast 1), ("max_skill_md_bytes", atLeast 1), ("max_text_bytes", atLeast 1),
    ("max_findings", atLeast 1), ("max_findings_per_rule", atLeast 1)]

def claimsUntrusted : Schema :=
  total [("notice", text 1 200), ("name", claim 64), ("description", claim 1024), ("compatibility", claim 500),
    ("allowed_tools", claim 1000)]

def scope : Schema :=
  total [("capture_mode", const (.str "non-atomic-local-directory-snapshot")),
    ("analysis_snapshot", const (.str "immutable-in-memory-file-bytes")), ("capture_consistency", text 1 200),
    ("capture_started_at", dateTime), ("capture_completed_at", dateTime),
    ("capture_timestamp_source", texts ["system-clock", "caller-supplied-reproducibility-override"]),
    ("excluded_paths", list 20 path), ("symlink_policy", const (.str "rejected")),
    ("reparse_point_policy", const (.str "rejected")), ("hardlink_policy", const (.str "rejected")),
    ("special_file_policy", const (.str "rejected"))]

def fileEntry : Schema := total [("path", path), ("size", integer 0 2000000), ("sha256", sha256)]

def artifact : Schema :=
  total [("type", const (.str "agent-skill")), ("root_directory", text 1 255), ("claims_untrusted", claimsUntrusted),
    ("digest", total [("algorithm", const (.str "capabilityproof-directory-sha256-v1")), ("sha256", sha256)]),
    ("file_count", integer 0 1000), ("total_bytes", integer 0 25000000), ("files", list 1000 fileEntry), ("scope", scope)]

/-- `^(?:[0-9a-f]{40}|[0-9a-f]{64})$`. -/
def commit : Schema := anyOf [matching (Regex.anchored (hexDigits 40)), matching (Regex.anchored (hexDigits 64))]

/-- A source verification that was not performed, or one that was completed by the method. -/
def notPerformed : Schema := total [("status", const (.str "not-performed"))]

def completedBy : Schema :=
  total [("status", const (.str "completed")), ("method", const (.str "exact-local-git-blob-match-v1"))]

def provenance : Schema :=
  total [("content_digest_pinned", const (.bool true)), ("source_repository", text 1 2048),
    ("source_commit", oneOf [const (.str "not-checked"), commit]),
    ("artifact_path", anyOf [const (.str "not-checked"), path]),
    ("source_verification", oneOf [notPerformed, completedBy]),
    ("publisher_identity", const (.str "not-checked"))]

def formatValidation : Schema :=
  total [("standard", const (.str "Agent Skills")), ("standard_url", const (.str "https://agentskills.io/specification")),
    ("status", texts ["pass", "fail"]), ("findings", list 500 structuralFinding),
    ("local_references", list 1000 localReference), ("external_references_untrusted", list 1000 (text 0 500))]

def licenseEvidence : Schema :=
  total [("declared_claim_untrusted", claim 500), ("license_files", list 100 path),
    ("interpretation", const (.str "presence or declaration only; legal terms were not interpreted"))]

def inferredRequirements : Schema :=
  total [("filesystem_read", requirementSignal), ("filesystem_write", requirementSignal),
    ("process_spawn", requirementSignal), ("network", requirementSignal), ("secrets", requirementSignal)]

def staticAnalysis : Schema :=
  total [("status", const (.str "completed")), ("engine", const (.str "capabilityproof-static-v0.1.0")),
    ("summary", staticSummary), ("findings", list 500 staticFinding), ("skipped_text_files", list 1000 skippedFile),
    ("coverage", coverage), ("inferred_requirements", inferredRequirements), ("dependencies", list 1000 dependency),
    ("manifest_parse_failures", list 1000 manifestParseFailure), ("script_languages", list 1000 (text 1 100)),
    ("referenced_hosts", list 500 (text 1 253))]

def evidenceLabels : Schema :=
  allOf [type [.array], minItems 2, maxItems 7, uniqueItems,
    items (texts ["DIGEST_PINNED", "STRUCTURE_VALIDATED", "STATIC_INSPECTION_COMPLETED", "PUBLISHER_CI_ATTESTED",
      "INDEPENDENT_STATIC_SCAN", "SANDBOX_BEHAVIOR_OBSERVED", "TASK_EVALUATED"])]

def evidenceLevels : Schema :=
  total [("highest_contiguous_level", integer 0 3),
    ("completed_checks", listBetween 3 4 (integer 0 3)),
    ("levels", listBetween 7 7 evidenceLevel)]

def decision : Schema :=
  total [("status", texts ["reject-structural", "review-required", "eligible-for-policy-evaluation"]),
    ("meaning", text 1 300)]

def validity : Schema := total [("generated_at", dateTime), ("expires_at", dateTime), ("invalidation", text 1 200)]

def policy : Schema :=
  total [("profile", const (.str "capabilityproof-local-static-policy-v0.1.0")), ("limits", scanLimits),
    ("profile_sha256", sha256)]

def runtime : Schema :=
  total [("implementation", text 1 50), ("python", text 1 50), ("pyyaml", text 1 50), ("mcp", text 1 50)]

def methodology : Schema :=
  total [("name", const (.str "VouchSpec non-executing Agent Skill inspection")), ("version", const (.str "0.2.0")),
    ("structural_profile", const (.str "agent-skills-structural-v0.1.0")),
    ("static_ruleset", const (.str "capabilityproof-static-v0.1.0")), ("static_ruleset_sha256", sha256),
    ("reference_dependency_lock_sha256", sha256), ("runtime", runtime), ("artifact_execution", const (.str "not-performed")),
    ("network_observation", const (.str "not-performed")), ("publisher_verification", const (.str "not-performed")),
    ("task_evaluation", const (.str "not-performed")), ("profile_sha256", sha256)]

def authentication : Schema :=
  total [("public_distribution_requirement", text 1 300),
    ("signature_verification", total [("profile", const (.str "dsse-v1.0.2-ed25519")),
      ("payload_type", const (.str "application/vnd.vouchspec.capability-receipt.v1+json")),
      ("verification_order", const (.str "authenticate decoded payload bytes before parsing JSON")),
      ("command", const (.str "capabilityproof verify ENVELOPE --key PUBLIC_JWK"))])]

def limitations : Schema := listBetween 1 30 (text 1 500)

def integrity : Schema :=
  total [("profile", const (.str "capabilityproof-payload-digest-v2")),
    ("deterministic_json_profile", allOf [type [.string], pattern jsonProfilePattern, maxLength 300]),
    ("evidence_sha256", sha256),
    ("signature", total [("status", const (.str "external-envelope-required")),
      ("profile", const (.str "dsse-v1.0.2-ed25519")),
      ("payload_type", const (.str "application/vnd.vouchspec.capability-receipt.v1+json"))]),
    ("replacement_warning", text 1 300)]

/-- `capability-receipt.schema.json`. -/
def schema : Schema :=
  total [("schema_version", const (.str "1.1.0")),
    ("schema_uri", const (.str "urn:vouchspec:schema:capability-receipt:1.1.0")), ("schema_sha256", sha256),
    ("receipt_profile", const (.str "vouchspec-agent-skill-static-receipt-v0.2.0")),
    ("integrity_assurance", const (.str "payload-digest-requires-external-dsse")), ("artifact", artifact),
    ("provenance", provenance), ("format_validation", formatValidation), ("license_evidence", licenseEvidence),
    ("static_analysis", staticAnalysis), ("evidence_labels", evidenceLabels), ("evidence_levels", evidenceLevels),
    ("decision", decision), ("validity", validity), ("policy", policy), ("methodology", methodology),
    ("authentication", authentication), ("limitations", limitations), ("receipt_id", matching receiptIdPattern),
    ("integrity", integrity)]

end ReceiptSchema

end VouchSpec
