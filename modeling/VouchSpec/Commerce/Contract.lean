import VouchSpec.Commerce.Platform

/-! The provider-neutral contract: request validation, the quote document and
the transition rules of orders and payments. -/

namespace VouchSpec

inductive Environment where
  | sandbox
  | live
deriving DecidableEq, Repr

def Environment.value : Environment → String
  | sandbox => "sandbox"
  | live => "live"

theorem Environment.value_injective : Function.Injective Environment.value := by
  intro left right
  cases left <;> cases right <;> simp [Environment.value]

inductive OrderStatus where
  | checkoutPending
  | paymentPending
  | queued
  | running
  | delivered
  | paymentFailed
  | fulfillmentFailed
  | cancelled
deriving DecidableEq, Repr

def OrderStatus.value : OrderStatus → String
  | checkoutPending => "checkout_pending"
  | paymentPending => "payment_pending"
  | queued => "queued"
  | running => "running"
  | delivered => "delivered"
  | paymentFailed => "payment_failed"
  | fulfillmentFailed => "fulfillment_failed"
  | cancelled => "cancelled"

inductive PaymentStatus where
  | pending
  | captured
  | available
  | refundPending
  | refunded
  | disputed
  | failed
deriving DecidableEq, Repr

def PaymentStatus.value : PaymentStatus → String
  | pending => "pending"
  | captured => "captured"
  | available => "available"
  | refundPending => "refund_pending"
  | refunded => "refunded"
  | disputed => "disputed"
  | failed => "failed"

def orderTransitions : OrderStatus → List OrderStatus
  | .checkoutPending => [.paymentPending, .cancelled]
  | .paymentPending => [.queued, .paymentFailed, .cancelled]
  | .queued => [.running, .fulfillmentFailed]
  | .running => [.delivered, .fulfillmentFailed]
  | .delivered => []
  | .paymentFailed => []
  | .fulfillmentFailed => []
  | .cancelled => []

def paymentTransitions : PaymentStatus → List PaymentStatus
  | .pending => [.captured, .failed]
  | .captured => [.available, .refundPending, .disputed]
  | .available => [.refundPending, .disputed]
  | .refundPending => [.refunded, .disputed]
  | .refunded => []
  | .disputed => []
  | .failed => []

/-- The rejection of a transition that no table allows. -/
def transitionRejected (current target : String) : Raised :=
  rejected ("transition " ++ current ++ " -> " ++ target ++ " is not allowed")
    "invalid_commerce_transition"

/-- `require_transition` between two order states. -/
def requireOrderTransition (current target : OrderStatus) : Except Raised Unit :=
  require (target ∈ orderTransitions current) (transitionRejected current.value target.value)

/-- `require_transition` between two payment states. -/
def requirePaymentTransition (current target : PaymentStatus) : Except Raised Unit :=
  require (target ∈ paymentTransitions current) (transitionRejected current.value target.value)

def freshValidationAmountMinor : Nat := 25
def legacyStripeAmountMinor : Nat := 4900
def freshValidationCurrency : String := "usd"
def freshValidationProfile : String := "vouchspec-public-static-v1"
def quoteTtlMinutes : Int := 15

namespace Pattern

/-- A character class and a length range, matched against a whole text. -/
def fullmatch (accepts : Char → Bool) (least most : Nat) (text : List Char) : Bool :=
  least ≤ text.length && text.length ≤ most && text.all accepts

/-- A literal prefix before the rest of a text. -/
def afterPrefix (literal : String) (rest : List Char → Bool) (text : List Char) : Bool :=
  literal.toList.isPrefixOf text && rest (text.drop literal.toList.length)

/-- One leading character of a class before the rest of a text. -/
def startsWith (accepts : Char → Bool) (rest : List Char → Bool) : List Char → Bool
  | [] => false
  | first :: more => accepts first && rest more

def isAlnum (c : Char) : Bool :=
  (65 ≤ c.toNat && c.toNat ≤ 90) || (97 ≤ c.toNat && c.toNat ≤ 122) ||
    (48 ≤ c.toNat && c.toNat ≤ 57)

def isHyphen (c : Char) : Bool := c.toNat = 45
def isUnderscore (c : Char) : Bool := c.toNat = 95
def isDot (c : Char) : Bool := c.toNat = 46

def commit (text : String) : Bool := fullmatch Bytes.isHexDigit 40 40 text.toList

def owner (text : String) : Bool :=
  startsWith isAlnum (fullmatch (fun c => isAlnum c || isHyphen c) 0 38) text.toList

def repository (text : String) : Bool :=
  startsWith isAlnum
    (fullmatch (fun c => isAlnum c || isUnderscore c || isDot c || isHyphen c) 0 99) text.toList

def deliveryId (text : String) : Bool := fullmatch Bytes.isUrlSafe 8 64 text.toList

def quoteId (text : String) : Bool :=
  afterPrefix "q_" (fullmatch Bytes.isHexDigit 24 24) text.toList

def skillSegment (text : List Char) : Bool :=
  startsWith isAlnum
    (fullmatch (fun c => isAlnum c || isDot c || isUnderscore c || isHyphen c) 0 99) text

end Pattern

def invalidRequest (message : String) : Raised := rejected message "invalid_commerce_request"

/-- Python's `repr` of a sorted list of plain names. -/
def nameList (names : List String) : String :=
  "[" ++ ", ".intercalate (names.map fun name => "'" ++ name ++ "'") ++ "]"

/-- `_exact_object`: the value is an object with exactly these members, listed
in order. -/
def exactObject (value : Json) (names : List String) (name : String) : Except Raised Unit :=
  require (value.hasExactly names) (invalidRequest (name ++ " must contain exactly " ++ nameList names))

/-- `PurePosixPath(value).parts` of a relative path. -/
def pathParts (value : List Char) : List (List Char) :=
  (value.splitOn '/').filter fun part => part ≠ [] && part ≠ ['.']

/-- `PurePosixPath(value).as_posix()` of a relative path. -/
def asPosix (value : List Char) : List Char :=
  if pathParts value = [] then ['.'] else List.intercalate ['/'] (pathParts value)

def validateSkillPath (value : Json) : Except Raised String :=
  match value.str? with
  | none => .error (invalidRequest "skill_path must be a non-empty relative UTF-8 path")
  | some text => do
      let characters := text.toList
      require (characters ≠ [] ∧ (Bytes.utf8 characters).length ≤ 1024)
        (invalidRequest "skill_path must be a non-empty relative UTF-8 path")
      require (Char.ofNat 92 ∉ characters ∧ characters.head? ≠ some '/' ∧ ':' ∉ characters)
        (invalidRequest "skill_path must use a relative POSIX path")
      require (characters = asPosix characters ∧ 1 ≤ (pathParts characters).length ∧
          (pathParts characters).length ≤ 32 ∧
          ∀ part ∈ pathParts characters, part ≠ [] ∧ part ≠ ['.'] ∧ part ≠ ['.', '.'])
        (invalidRequest "skill_path contains an unsupported segment or depth")
      require (∀ part ∈ pathParts characters, Pattern.skillSegment part)
        (invalidRequest ("skill_path segments must be 1-100 ASCII letters, digits, dot, " ++
          "underscore, or hyphen and start alphanumeric"))
      return text

structure Source where
  owner : String
  repository : String
  commit : String
  skillPath : String
deriving DecidableEq

/-- The normalized request; its remaining members are constants. -/
structure ValidationRequest where
  source : Source
  maxAmountMinor : Nat
  deliveryId : String
deriving DecidableEq

def Source.toJson (source : Source) : Json :=
  .obj [("commit", .str source.commit), ("host", .str "github.com"), ("owner", .str source.owner),
    ("repository", .str source.repository), ("skill_path", .str source.skillPath)]

def ValidationRequest.toJson (request : ValidationRequest) : Json :=
  .obj [("delivery_id", .str request.deliveryId),
    ("max_price", .obj [("amount_minor", .int request.maxAmountMinor),
      ("currency", .str freshValidationCurrency)]),
    ("operation", .str "fresh_public_static_validation"),
    ("profile", .str freshValidationProfile), ("schema_version", .str "1.0.0"),
    ("source", request.source.toJson)]

/-- A member that must be a text matching a pattern. -/
def matchingMember (value : Json) (name : String) (pattern : String → Bool) (error : Raised) :
    Except Raised String := do
  let text ← Except.ofOption error ((value.get? name).bind Json.str?)
  require (pattern text) error
  return text

/-- A member that must equal one text. -/
def exactly (value : Json) (name expected : String) (error : Raised) : Except Raised Unit :=
  require (value.get? name = some (.str expected)) error

/-- Validate and normalize the only paid request profile. -/
def parseFreshValidationRequest (value : Json) : Except Raised ValidationRequest := do
  exactObject value
    ["delivery_id", "max_price", "operation", "profile", "schema_version", "source"] "request"
  exactly value "schema_version" "1.0.0" (invalidRequest "unsupported commerce request schema")
  exactly value "operation" "fresh_public_static_validation"
    (invalidRequest "unsupported paid operation")
  exactly value "profile" freshValidationProfile (invalidRequest "unsupported validation profile")
  let source := (value.get? "source").getD .null
  exactObject source ["commit", "host", "owner", "repository", "skill_path"] "source"
  exactly source "host" "github.com"
    (rejected "source host is not allowlisted" "unsupported_source_host")
  let owner ← matchingMember source "owner" Pattern.owner (invalidRequest "source owner is invalid")
  let repository ← matchingMember source "repository" Pattern.repository
    (invalidRequest "source repository is invalid")
  let commit ← matchingMember source "commit" Pattern.commit
    (rejected "source commit must be a full lowercase Git SHA-1" "mutable_source_reference")
  let maximum := (value.get? "max_price").getD .null
  exactObject maximum ["amount_minor", "currency"] "max_price"
  exactly maximum "currency" freshValidationCurrency
    (invalidRequest "max_price currency must be usd")
  let amount ← Except.ofOption (invalidRequest "max_price amount_minor is invalid")
    ((maximum.get? "amount_minor").bind Json.int?)
  require (0 ≤ amount ∧ amount ≤ 1000000) (invalidRequest "max_price amount_minor is invalid")
  let deliveryId ← matchingMember value "delivery_id" Pattern.deliveryId
    (invalidRequest "delivery_id must be an opaque 8-64 character identifier")
  let skillPath ← validateSkillPath ((source.get? "skill_path").getD .null)
  return { source := { owner, repository, commit, skillPath },
           maxAmountMinor := amount.toNat, deliveryId }

/-- A request that was read from a value, its source and its maximum price. -/
structure ValidationRequest.ReadFrom (request : ValidationRequest) (value origin price : Json) : Prop where
  members : value.hasExactly
    ["delivery_id", "max_price", "operation", "profile", "schema_version", "source"] = true
  schemaVersion : value.get? "schema_version" = some (.str "1.0.0")
  operation : value.get? "operation" = some (.str "fresh_public_static_validation")
  profile : value.get? "profile" = some (.str freshValidationProfile)
  source : value.get? "source" = some origin
  sourceMembers : origin.hasExactly ["commit", "host", "owner", "repository", "skill_path"] = true
  host : origin.get? "host" = some (.str "github.com")
  owner : origin.get? "owner" = some (.str request.source.owner) ∧ Pattern.owner request.source.owner = true
  repository : origin.get? "repository" = some (.str request.source.repository) ∧
    Pattern.repository request.source.repository = true
  commit : origin.get? "commit" = some (.str request.source.commit) ∧ Pattern.commit request.source.commit = true
  skillPath : ∃ path, origin.get? "skill_path" = some path ∧ validateSkillPath path = .ok request.source.skillPath
  maximum : value.get? "max_price" = some price
  maximumMembers : price.hasExactly ["amount_minor", "currency"] = true
  currency : price.get? "currency" = some (.str freshValidationCurrency)
  amount : price.get? "amount_minor" = some (.int request.maxAmountMinor) ∧ request.maxAmountMinor ≤ 1000000
  deliveryId : value.get? "delivery_id" = some (.str request.deliveryId) ∧ Pattern.deliveryId request.deliveryId = true

private theorem matching_eq_ok {value : Json} {name text : String} {pattern : String → Bool} {error : Raised} :
    matchingMember value name pattern error = .ok text ↔ value.get? name = some (.str text) ∧ pattern text = true := by
  simp only [matchingMember, Except.bind_eq_ok_iff, require_eq_ok, exists_const, Except.pure_eq_ok_iff]
  cases value.get? name with
  | none => simp [Except.ofOption]
  | some found =>
      cases found with
      | str other =>
          simp only [Option.bind_some, Json.str?, Except.ofOption, Except.ok.injEq, Option.some.injEq, Json.str.injEq]
          constructor
          · rintro ⟨_, rfl, hPattern, rfl⟩
            exact ⟨rfl, hPattern⟩
          · rintro ⟨rfl, hPattern⟩
            exact ⟨_, rfl, hPattern, rfl⟩
      | _ => simp [Json.str?, Except.ofOption]

/-- What the parser accepts, and the request it makes of it. -/
theorem parseFreshValidationRequest_eq_ok {value : Json} {request : ValidationRequest} :
    parseFreshValidationRequest value = .ok request ↔ ∃ source maximum, request.ReadFrom value source maximum := by
  simp only [parseFreshValidationRequest, exactObject, exactly, matching_eq_ok, Except.bind_eq_ok_iff, require_eq_ok,
    exists_const, Except.pure_eq_ok_iff]
  constructor
  · rintro ⟨hMembers, hVersion, hOperation, hProfile, hSource, hHost, owner, hOwner, repository, hRepository, commit,
      hCommit, hMaximum, hCurrency, amount, hAmount, ⟨hLeast, hMost⟩, deliveryId, hDelivery, skillPath, hPath, rfl⟩
    have hFound : value.get? "source" = some ((value.get? "source").getD .null) := by
      cases h : value.get? "source" with
      | none => rw [h] at hSource; cases hSource
      | some found => rfl
    have hPrice : value.get? "max_price" = some ((value.get? "max_price").getD .null) := by
      cases h : value.get? "max_price" with
      | none => rw [h] at hMaximum; cases hMaximum
      | some found => rfl
    refine ⟨_, _, hMembers, hVersion, hOperation, hProfile, hFound, hSource, hHost, hOwner, hRepository, hCommit, ?_,
      hPrice, hMaximum, hCurrency, ?_, hDelivery⟩
    · generalize (value.get? "source").getD .null = source at hPath
      cases h : source.get? "skill_path" with
      | none =>
          rw [h] at hPath
          cases hPath
      | some path =>
          rw [h] at hPath
          exact ⟨path, rfl, hPath⟩
    · generalize (value.get? "max_price").getD .null = maximum at hAmount
      cases h : maximum.get? "amount_minor" with
      | none =>
          rw [h] at hAmount
          cases hAmount
      | some found =>
          rw [h] at hAmount
          cases found with
          | int number =>
              obtain rfl : number = amount := Except.ok.inj hAmount
              show some (Json.int number) = some (.int number.toNat) ∧ number.toNat ≤ 1000000
              rw [Int.toNat_of_nonneg hLeast]
              exact ⟨rfl, by omega⟩
          | _ => cases hAmount
  · rintro ⟨source, maximum, reads⟩
    obtain ⟨path, hPath, hValid⟩ := reads.skillPath
    simp only [reads.source, reads.maximum, Option.getD_some, reads.amount.1, hPath]
    refine ⟨reads.members, reads.schemaVersion, reads.operation, reads.profile, reads.sourceMembers, reads.host, _,
      reads.owner, _, reads.repository, _, reads.commit, reads.maximumMembers, reads.currency, _, rfl, ⟨?_, ?_⟩, _,
      reads.deliveryId, _, hValid, ?_⟩
    · omega
    · have hMost := reads.amount.2
      omega
    · rfl

def refundConditions : List String :=
  ["duplicate_charge",
   "payment_settled_but_job_never_started_due_to_vouchspec_failure",
   "job_failed_before_a_signed_receipt_was_produced",
   "unsupported_request_accepted_due_to_vouchspec_validation_defect",
   "invalid_signature_or_wrong_source_commit_path_or_digest_after_one_automatic_rerun"]

/-- The quote document; the members not listed here are constants of
`toJson`. A preview has no `counts_for_goal` member. -/
structure Quote where
  quoteId : String
  requestDigest : String
  amountMinor : Nat
  amount : String
  generatedAt : String
  expiresAt : String
  quoteStatus : String
  availability : String
  orderable : Bool
  settlementAvailable : Bool
  paymentOptions : List (String × String)
  source : Source
  deliveryId : String
  paymentGate : String
  countsForGoal : Option Bool
  quoteDigest : String
deriving DecidableEq

private def strings (texts : List String) : Json := .arr (texts.map Json.str)

/-- The document without its own digest. -/
def Quote.toJson (quote : Quote) : Json :=
  .obj ([("amount", .str quote.amount), ("amount_minor", .int quote.amountMinor),
    ("availability", .str quote.availability)] ++
    (match quote.countsForGoal with
      | none => []
      | some counts => [("counts_for_goal", .bool counts)]) ++
    [("currency", .str freshValidationCurrency),
    ("deliverable", .obj [("delivery_id", .str quote.deliveryId),
      ("evidence_not_promised", strings
        ["universal_safety", "malware_free", "runtime_behavior", "publisher_identity"]),
      ("execution", .str "artifact_content_not_executed"), ("profile", .str freshValidationProfile),
      ("source", quote.source.toJson), ("type", .str "signed_exact_version_static_receipt")]),
    ("expires_at", .str quote.expiresAt), ("generated_at", .str quote.generatedAt),
    ("hard_limits", .obj [("artifact_total_bytes", .int 25000000), ("directory_depth", .int 32),
      ("files", .int 1000), ("individual_file_bytes", .int 2000000),
      ("worker_wall_seconds", .int 60)]),
    ("live_gates", strings ["allowlisted immutable fetcher and isolated no-egress worker",
      "separate constrained signing service", quote.paymentGate,
      "idempotent order store and provider reconciliation"]),
    ("non_refund_condition",
      .str "an accurately reported structural or static finding is the purchased result"),
    ("operation", .str "fresh_public_static_validation"), ("orderable", .bool quote.orderable),
    ("payment_options", .arr (quote.paymentOptions.map fun option =>
      .obj [("provider", .str option.1), ("status", .str option.2)])),
    ("quote_id", .str quote.quoteId), ("quote_status", .str quote.quoteStatus),
    ("refund_conditions", strings refundConditions), ("request_digest", .str quote.requestDigest),
    ("schema_version", .str "1.0.0"), ("service", .str "VouchSpec"),
    ("settlement_available", .bool quote.settlementAvailable)])

section
variable (p : Platform)

/-- The document with the digest of its other members. -/
def Quote.sealed (quote : Quote) : Quote :=
  { quote with quoteDigest := "sha256:" ++ p.textDigest quote.toJson.text }

/-- Build a precise non-orderable quote preview. `drawn` is the random part of
the identifier that an empty `quoteId` asks for. -/
def buildFreshValidationQuote (requestValue : Json) (generatedAt : DateTime) (quoteId drawn : String)
    (legacyStripeAdapter : Bool) : Except Raised Quote := do
  let request ← parseFreshValidationRequest requestValue
  let identifier := if quoteId = "" then "q_" ++ drawn else quoteId
  require (Pattern.quoteId identifier)
    (.valueError "quote_id must match q_ followed by 24 lowercase hex characters")
  require (generatedAt.aware = true) (.valueError "timestamp must be timezone-aware")
  let amountMinor := if legacyStripeAdapter then legacyStripeAmountMinor else freshValidationAmountMinor
  let withinMaximum := amountMinor ≤ request.maxAmountMinor
  let quote : Quote := {
    quoteId := identifier
    requestDigest := "sha256:" ++ p.textDigest request.toJson.text
    amountMinor
    amount := if legacyStripeAdapter then "49.00" else "0.25"
    generatedAt := p.timestamp generatedAt.instant
    expiresAt := p.timestamp (generatedAt.instant + minutes quoteTtlMinutes)
    quoteStatus := if ¬withinMaximum then "declined_max_price"
      else if legacyStripeAdapter then "preview_account_and_worker_not_live"
      else "preview_mainnet_not_live"
    availability := if legacyStripeAdapter then "stage_b_worker_and_payment_activation_required"
      else "stage_b_mainnet_activation_required"
    orderable := false
    settlementAvailable := false
    paymentOptions := if legacyStripeAdapter then
        [("stripe_checkout", "account_activation_required"), ("x402", "secondary_not_enabled")]
      else [("x402", "mainnet_not_enabled")]
    source := request.source
    deliveryId := request.deliveryId
    paymentGate := if legacyStripeAdapter then
        "activated payment account and verified webhook secret"
      else "exact x402 mainnet settlement and automated remedy controls"
    countsForGoal := none
    quoteDigest := "" }
  return quote.sealed p

end

end VouchSpec
