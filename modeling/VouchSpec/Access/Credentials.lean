import VouchSpec.Commerce.Contract

/-! The identifiers and secrets of the access store. Every digest is a MAC over
a label and its parts, and the encoding of label and parts loses nothing. -/

namespace VouchSpec

namespace Access

namespace Pattern

open VouchSpec.Pattern

def tenantId (text : String) : Bool := afterPrefix "ten_" (fullmatch Bytes.isHexDigit 24 24) text.toList

def secret : List Char → Bool := fullmatch Bytes.isUrlSafe 43 43

def apiKey (text : String) : Bool :=
  afterPrefix "vsk_test_" secret text.toList || afterPrefix "vsk_live_" secret text.toList

def deliveryToken (text : String) : Bool :=
  afterPrefix "vsd_test_" secret text.toList || afterPrefix "vsd_live_" secret text.toList

def orderId (text : String) : Bool :=
  afterPrefix "ord_" (fullmatch Bytes.isHexDigit 24 24) text.toList ||
    afterPrefix "ord_test_" (fullmatch Bytes.isHexDigit 24 24) text.toList

def idempotency (text : String) : Bool := fullmatch Bytes.isUrlSafe 8 96 text.toList

end Pattern

/-- The secrets of the access store. -/
structure Keyring where
  authPepper : Bytes
  deliverySecret : Bytes
  length_authPepper : 32 ≤ authPepper.length
  length_deliverySecret : 32 ≤ deliverySecret.length
  distinct : authPepper ≠ deliverySecret

/-- The uses of a MAC. -/
inductive Label where
  | apiKey
  | quoteIdempotency
  | deliveryToken
  | deliveryDigest
  | quoteId
  | orderIdempotency
deriving DecidableEq

def Label.value : Label → String
  | apiKey => "api-key"
  | quoteIdempotency => "quote-idempotency"
  | deliveryToken => "delivery-token"
  | deliveryDigest => "delivery-digest"
  | quoteId => "quote-id"
  | orderIdempotency => "order-idempotency"

/-- What a MAC is taken over: a secret and a message. -/
structure MacInput where
  key : Bytes
  message : Bytes
deriving DecidableEq

/-- The message of a label and its parts. -/
def macInput (key : Bytes) (label : Label) (parts : List String) : MacInput where
  key := key
  message := Bytes.frame (Bytes.ascii label.value) (parts.map Bytes.ascii)

/-- Text that the framing keeps apart from its separator. -/
def isPart (text : String) : Bool := text.toList.all fun c => 0 < c.toNat && c.toNat < 128

/-- The part is one that the framing encodes faithfully. -/
theorem isPart_ascii {text : String} (h : isPart text = true) :
    Bytes.isAscii text = true ∧ Bytes.NulFree (Bytes.ascii text) := by
  simp only [isPart, List.all_eq_true, Bool.and_eq_true, decide_eq_true_eq] at h
  constructor
  · simp only [Bytes.isAscii, List.all_eq_true, decide_eq_true_eq]
    exact fun c hc => (h c hc).2
  · intro hNul
    obtain ⟨c, hc, hZero⟩ := List.mem_map.mp hNul
    have hBounds := h c hc
    have hCode := congrArg UInt8.toNat hZero
    simp only [UInt8.toNat_ofNat', UInt8.toNat_zero] at hCode
    omega

theorem Label.value_injective : Function.Injective Label.value := by
  intro left right
  cases left <;> cases right <;> simp [Label.value]

theorem Label.isPart (label : Label) : isPart label.value = true := by
  cases label <;> decide

/-- A MAC's input determines its secret, its label and its parts. -/
theorem macInput_inj {key other : Bytes} {label use : Label} {parts texts : List String}
    (hParts : parts ≠ []) (hTexts : texts ≠ []) (hPart : ∀ part ∈ parts, isPart part = true)
    (hText : ∀ text ∈ texts, isPart text = true)
    (h : macInput key label parts = macInput other use texts) :
    key = other ∧ label = use ∧ parts = texts := by
  simp only [macInput, MacInput.mk.injEq] at h
  obtain ⟨rfl, hFrame⟩ := h
  have hFree : ∀ {list : List String}, (∀ part ∈ list, Access.isPart part = true) →
      ∀ bytes ∈ list.map Bytes.ascii, Bytes.NulFree bytes := by
    intro list hList bytes hBytes
    obtain ⟨part, hMem, rfl⟩ := List.mem_map.mp hBytes
    exact (isPart_ascii (hList part hMem)).2
  obtain ⟨hLabel, hSame⟩ := Bytes.frame_inj (isPart_ascii label.isPart).2 (isPart_ascii use.isPart).2
    (by simpa using hParts) (by simpa using hTexts) (hFree hPart) (hFree hText) hFrame
  refine ⟨rfl, Label.value_injective
    (Bytes.ascii_inj (isPart_ascii label.isPart).1 (isPart_ascii use.isPart).1 hLabel), ?_⟩
  clear hFrame hParts hTexts
  induction parts generalizing texts with
  | nil => simpa using hSame.symm
  | cons part rest ih =>
      cases texts with
      | nil => simp at hSame
      | cons text more =>
          simp only [List.map_cons, List.cons.injEq] at hSame
          have hFirst := Bytes.ascii_inj (isPart_ascii (hPart part (by simp))).1
            (isPart_ascii (hText text (by simp))).1 hSame.1
          rw [hFirst, ih (fun p hp => hPart p (List.mem_cons_of_mem _ hp))
            (fun t ht => hText t (List.mem_cons_of_mem _ ht)) hSame.2]

section
variable (p : Platform) (keyring : Keyring)

def mac (input : MacInput) : Digest := p.hmacSha256 input.key input.message

/-- `_token_bytes`; its parts must be ASCII. -/
def tokenBytes (key : Bytes) (label : Label) (parts : List String) : Except Raised Digest := do
  require (parts.all Bytes.isAscii) .unicodeEncodeError
  return mac p (macInput key label parts)

def apiInput (apiKey : String) : MacInput := macInput keyring.authPepper .apiKey [apiKey]

def idempotencyInput (tenantId idempotencyKey : String) : MacInput :=
  macInput keyring.authPepper .quoteIdempotency [tenantId, idempotencyKey]

def deliveryTokenInput (tenantId orderId : String) (version : Nat) : MacInput :=
  macInput keyring.deliverySecret .deliveryToken [tenantId, orderId, toString version]

def deliveryDigestInput (token : String) : MacInput :=
  macInput keyring.authPepper .deliveryDigest [token]

def quoteIdInput (tenantId idempotencyKey : String) : MacInput :=
  macInput keyring.authPepper .quoteId [tenantId, idempotencyKey]

def orderIdempotencyInput (tenantId idempotencyKey : String) : MacInput :=
  macInput keyring.authPepper .orderIdempotency [tenantId, idempotencyKey]

/-- `_urlsafe`. -/
def urlsafe (value : Digest) : String := String.ofList (Bytes.base64Url value.bytes)

/-- `_api_digest`. -/
def apiDigest (apiKey : String) : Digest := mac p (apiInput keyring apiKey)

/-- `_delivery_digest`. -/
def deliveryDigest (token : String) : Digest := mac p (deliveryDigestInput keyring token)

def apiKeyPrefix (environment : Environment) : String :=
  match environment with | .sandbox => "vsk_test_" | .live => "vsk_live_"

def deliveryTokenPrefix (environment : Environment) : String :=
  match environment with | .sandbox => "vsd_test_" | .live => "vsd_live_"

/-- An API key made of thirty-two random bytes. -/
def apiKeyOf (environment : Environment) (drawn : Digest) : String :=
  apiKeyPrefix environment ++ urlsafe drawn

/-- `_delivery_token`. -/
def deliveryToken (environment : Environment) (tenantId orderId : String) (version : Nat) : String :=
  deliveryTokenPrefix environment ++ urlsafe (mac p (deliveryTokenInput keyring tenantId orderId version))

private def invalidKey : Raised := rejected "idempotency key is invalid" "invalid_commerce_request"

def deriveQuoteId (tenantId idempotencyKey : String) : Except Raised String := do
  require (Pattern.tenantId tenantId ∧ Pattern.idempotency idempotencyKey) invalidKey
  return "q_" ++ (mac p (quoteIdInput keyring tenantId idempotencyKey)).hexPrefix 24

def deriveOrderIdempotencyKey (tenantId idempotencyKey : String) : Except Raised String := do
  require (Pattern.tenantId tenantId ∧ Pattern.idempotency idempotencyKey) invalidKey
  return "oid_" ++ (mac p (orderIdempotencyInput keyring tenantId idempotencyKey)).hexPrefix 32

theorem deriveQuoteId_eq_ok {tenantId idempotencyKey quoteId : String} :
    deriveQuoteId p keyring tenantId idempotencyKey = .ok quoteId ↔
      (Pattern.tenantId tenantId ∧ Pattern.idempotency idempotencyKey) ∧
        "q_" ++ (mac p (quoteIdInput keyring tenantId idempotencyKey)).hexPrefix 24 = quoteId := by
  simp [deriveQuoteId]

theorem deriveOrderIdempotencyKey_eq_ok {tenantId idempotencyKey key : String} :
    deriveOrderIdempotencyKey p keyring tenantId idempotencyKey = .ok key ↔
      (Pattern.tenantId tenantId ∧ Pattern.idempotency idempotencyKey) ∧
        "oid_" ++ (mac p (orderIdempotencyInput keyring tenantId idempotencyKey)).hexPrefix 32 = key := by
  simp [deriveOrderIdempotencyKey]

end

/-- Characters of a class of printable ASCII make a part. -/
theorem isPart_of_forall {text : String} (h : ∀ c ∈ text.toList, 0 < c.toNat ∧ c.toNat < 128) :
    isPart text = true := by
  simp only [isPart, List.all_eq_true, Bool.and_eq_true, decide_eq_true_eq]
  exact h

private theorem isUrlSafe_bounds {c : Char} (h : Bytes.isUrlSafe c = true) :
    0 < c.toNat ∧ c.toNat < 128 := by
  simp only [Bytes.isUrlSafe, Bool.or_eq_true, Bool.and_eq_true, decide_eq_true_eq] at h
  omega

private theorem isHexDigit_bounds {c : Char} (h : Bytes.isHexDigit c = true) :
    0 < c.toNat ∧ c.toNat < 128 := by
  simp only [Bytes.isHexDigit, Bool.or_eq_true, Bool.and_eq_true, decide_eq_true_eq] at h
  omega

/-- A text with an ASCII prefix and a rest of one class. -/
private theorem isPart_afterPrefix {literal : String} {accepts : Char → Bool} {least most : Nat}
    {text : String} (hLiteral : isPart literal = true)
    (hAccepts : ∀ c, accepts c = true → 0 < c.toNat ∧ c.toNat < 128)
    (h : VouchSpec.Pattern.afterPrefix literal (VouchSpec.Pattern.fullmatch accepts least most)
      text.toList = true) : isPart text = true := by
  simp only [VouchSpec.Pattern.afterPrefix, VouchSpec.Pattern.fullmatch, Bool.and_eq_true,
    List.isPrefixOf_iff_prefix, List.all_eq_true, decide_eq_true_eq] at h
  obtain ⟨⟨rest, hRest⟩, -, hAll⟩ := h
  simp only [isPart, List.all_eq_true, Bool.and_eq_true, decide_eq_true_eq] at hLiteral
  apply isPart_of_forall
  intro c hc
  rw [← hRest] at hc hAll
  rw [List.drop_left] at hAll
  rcases List.mem_append.mp hc with hc | hc
  · exact hLiteral c hc
  · exact hAccepts c (hAll c hc)

theorem isPart_tenantId {text : String} (h : Pattern.tenantId text = true) : isPart text = true :=
  isPart_afterPrefix (by decide) (fun _ => isHexDigit_bounds) h

theorem isPart_apiKey {text : String} (h : Pattern.apiKey text = true) : isPart text = true := by
  rcases Bool.or_eq_true_iff.mp h with h | h
  · exact isPart_afterPrefix (by decide) (fun _ => isUrlSafe_bounds) h
  · exact isPart_afterPrefix (by decide) (fun _ => isUrlSafe_bounds) h

theorem isPart_deliveryToken {text : String} (h : Pattern.deliveryToken text = true) :
    isPart text = true := by
  rcases Bool.or_eq_true_iff.mp h with h | h
  · exact isPart_afterPrefix (by decide) (fun _ => isUrlSafe_bounds) h
  · exact isPart_afterPrefix (by decide) (fun _ => isUrlSafe_bounds) h

theorem isPart_orderId {text : String} (h : Pattern.orderId text = true) : isPart text = true := by
  rcases Bool.or_eq_true_iff.mp h with h | h
  · exact isPart_afterPrefix (by decide) (fun _ => isHexDigit_bounds) h
  · exact isPart_afterPrefix (by decide) (fun _ => isHexDigit_bounds) h

theorem isPart_idempotency {text : String} (h : Pattern.idempotency text = true) :
    isPart text = true := by
  simp only [Pattern.idempotency, VouchSpec.Pattern.fullmatch, Bool.and_eq_true, List.all_eq_true] at h
  exact isPart_of_forall fun c hc => isUrlSafe_bounds (h.2 c hc)

private theorem toList_toString (number : Nat) : (toString number).toList = Nat.toDigits 10 number := by
  simp [toString, Nat.repr]

theorem isPart_toString (number : Nat) : isPart (toString number) = true := by
  apply isPart_of_forall
  intro c hc
  rw [toList_toString] at hc
  have hDigit : c.isDigit = true := Nat.isDigit_of_mem_toDigits (by decide) (by decide) hc
  simp only [Char.isDigit, Bool.and_eq_true, decide_eq_true_eq] at hDigit
  have hLeast : ('0' : Char).toNat ≤ c.toNat := hDigit.1
  have hMost : c.toNat ≤ ('9' : Char).toNat := hDigit.2
  simp only [Char.reduceToNat] at hLeast hMost
  omega

theorem toString_inj {left right : Nat} (h : toString left = toString right) : left = right := by
  have hDigits := congrArg String.toList h
  rw [toList_toString, toList_toString] at hDigits
  have hValue := congrArg (fun digits => Nat.ofDigitChars 10 digits 0) hDigits
  simpa only [Nat.ofDigitChars_ten_toDigits] using hValue

theorem urlsafe_inj {left right : Digest} (h : urlsafe left = urlsafe right) : left = right := by
  apply Digest.ext
  apply Bytes.base64Url_inj (left.length_bytes.trans right.length_bytes.symm)
  exact String.ofList_injective h

theorem secret_urlsafe (value : Digest) : Pattern.secret (urlsafe value).toList = true := by
  simp only [Pattern.secret, VouchSpec.Pattern.fullmatch, urlsafe, String.toList_ofList,
    Bytes.base64Url_length, value.length_bytes, Bool.and_eq_true, List.all_eq_true]
  exact ⟨⟨rfl, rfl⟩, Bytes.base64Url_isUrlSafe value.bytes⟩

private theorem afterPrefix_append {literal : String} {rest : List Char → Bool} {text : String}
    (h : rest text.toList = true) :
    VouchSpec.Pattern.afterPrefix literal rest (literal ++ text).toList = true := by
  simp [VouchSpec.Pattern.afterPrefix, String.toList_append, h]

theorem apiKey_apiKeyOf (environment : Environment) (drawn : Digest) :
    Pattern.apiKey (apiKeyOf environment drawn) = true := by
  unfold Pattern.apiKey apiKeyOf apiKeyPrefix
  cases environment with
  | sandbox => rw [afterPrefix_append (secret_urlsafe drawn), Bool.true_or]
  | live => rw [afterPrefix_append (secret_urlsafe drawn), Bool.or_true]

theorem deliveryToken_format (p : Platform) (keyring : Keyring) (environment : Environment)
    (tenantId orderId : String) (version : Nat) :
    Pattern.deliveryToken (deliveryToken p keyring environment tenantId orderId version) = true := by
  unfold Pattern.deliveryToken deliveryToken deliveryTokenPrefix
  cases environment with
  | sandbox => rw [afterPrefix_append (secret_urlsafe _), Bool.true_or]
  | live => rw [afterPrefix_append (secret_urlsafe _), Bool.or_true]

private theorem append_inj {literal left right : String} (h : literal ++ left = literal ++ right) :
    left = right := by
  have hLists := congrArg String.toList h
  rw [String.toList_append, String.toList_append, List.append_cancel_left_eq] at hLists
  exact String.toList_inj.mp hLists

theorem apiKeyOf_inj {environment : Environment} {left right : Digest}
    (h : apiKeyOf environment left = apiKeyOf environment right) : left = right :=
  urlsafe_inj (append_inj h)

/-- A delivery token determines the MAC that it carries. -/
theorem deliveryToken_inj {p : Platform} {keyring : Keyring} {environment : Environment}
    {tenantId orderId tenant order : String} {version number : Nat}
    (h : deliveryToken p keyring environment tenantId orderId version =
      deliveryToken p keyring environment tenant order number) :
    mac p (deliveryTokenInput keyring tenantId orderId version) =
      mac p (deliveryTokenInput keyring tenant order number) :=
  urlsafe_inj (append_inj h)

end Access

end VouchSpec
