import VouchSpec.Library.JsonLoader
import VouchSpec.Commerce.Contract

/-! A request body from its text to the validated request, with the exceptions of the
standard library on the way. The texts of a loaded document may hold lone surrogates, which
JSON can write and UTF-8 cannot. -/

namespace VouchSpec.StrictJson

/-- An exception on the way from a text to a request. -/
inductive Thrown where
  | raised (error : Raised)
  | recursionError

/-- `InputRejected`. -/
def Rejects : Raised → Prop
  | .inputRejected _ _ => True
  | _ => False

/-- Every other exception is an internal error of the interface. -/
def Thrown.Rejection : Thrown → Prop
  | .raised error => Rejects error
  | .recursionError => False

/-- A key in a message, surrogates replaced. -/
def shown (key : Text) : String :=
  String.ofList (key.map fun point => point.char?.getD (Char.ofNat 0xFFFD))

/-- The keys of an object after those seen already. -/
def buildFrom (seen : List Text) : List (Text × Loaded) → Except Raised Unit
  | [] => .ok ()
  | (key, _) :: rest => do
      require (key ∉ seen) (invalidRequest ("duplicate JSON key: " ++ shown key))
      buildFrom (key :: seen) rest

/-- `build_object`, the hook of the loader. -/
def buildObject (pairs : List (Text × Loaded)) : Except Raised Unit := buildFrom [] pairs

/-- Only the decoder's own error is caught. -/
def thrown : Loaded.Stop Raised → Thrown
  | .syntaxError => .raised (invalidRequest "commerce request must be valid JSON")
  | .recursionError => .recursionError
  | .digitsError => .raised (.valueError "Exceeds the limit (4300 digits) for integer string conversion")
  | .refused error => .raised error

/-- Load JSON while rejecting duplicate keys at every nesting level. -/
def loadStrictCommerceJson (depth : Nat) (text : String) : Except Thrown Loaded :=
  (Loaded.load buildObject depth text.toList).mapError thrown

/-- The member of an object, when it is a text without surrogates. -/
def stringAt (value : Loaded) (name : String) : Option String := (value.get? name).bind Loaded.string?

def exactObject (value : Loaded) (names : List String) (name : String) : Except Raised Unit :=
  require (value.hasExactly names) (invalidRequest (name ++ " must contain exactly " ++ nameList names))

/-- A member that must equal one text. -/
def exactly (value : Loaded) (name expected : String) (error : Raised) : Except Raised Unit :=
  require (stringAt value name = some expected) error

/-- A member that must be a text matching a pattern; no pattern matches a surrogate. -/
def matchingMember (value : Loaded) (name : String) (pattern : String → Bool) (error : Raised) :
    Except Raised String := do
  let text ← Except.ofOption error (stringAt value name)
  require (pattern text) error
  return text

/-- The length of the path is counted in bytes of UTF-8. -/
def validateSkillPath (value : Loaded) : Except Raised String :=
  match value.text? with
  | none => .error (invalidRequest "skill_path must be a non-empty relative UTF-8 path")
  | some text => do
      let path ← Except.ofOption .unicodeEncodeError (Text.encode? text)
      VouchSpec.validateSkillPath (.str path)

/-- What is checked before the path. -/
structure Checked where
  owner : String
  repository : String
  commit : String
  skillPath : Loaded
  maxAmountMinor : Nat
  deliveryId : String

/-- The repository of a source, its owner and the commit; the path is not looked at. -/
def checkSource (source : Loaded) : Except Raised (String × String × String) := do
  exactObject source ["commit", "host", "owner", "repository", "skill_path"] "source"
  exactly source "host" "github.com"
    (rejected "source host is not allowlisted" "unsupported_source_host")
  let owner ← matchingMember source "owner" Pattern.owner (invalidRequest "source owner is invalid")
  let repository ← matchingMember source "repository" Pattern.repository
    (invalidRequest "source repository is invalid")
  let commit ← matchingMember source "commit" Pattern.commit
    (rejected "source commit must be a full lowercase Git SHA-1" "mutable_source_reference")
  return (owner, repository, commit)

def checkMaximum (maximum : Loaded) : Except Raised Nat := do
  exactObject maximum ["amount_minor", "currency"] "max_price"
  exactly maximum "currency" freshValidationCurrency
    (invalidRequest "max_price currency must be usd")
  let amount ← Except.ofOption (invalidRequest "max_price amount_minor is invalid")
    ((maximum.get? "amount_minor").bind Loaded.int?)
  require (0 ≤ amount ∧ amount ≤ 1000000) (invalidRequest "max_price amount_minor is invalid")
  return amount.toNat

def checkRequest (value : Loaded) : Except Raised Checked := do
  exactObject value
    ["delivery_id", "max_price", "operation", "profile", "schema_version", "source"] "request"
  exactly value "schema_version" "1.0.0" (invalidRequest "unsupported commerce request schema")
  exactly value "operation" "fresh_public_static_validation"
    (invalidRequest "unsupported paid operation")
  exactly value "profile" freshValidationProfile (invalidRequest "unsupported validation profile")
  let source := (value.get? "source").getD .null
  let (owner, repository, commit) ← checkSource source
  let maxAmountMinor ← checkMaximum ((value.get? "max_price").getD .null)
  let deliveryId ← matchingMember value "delivery_id" Pattern.deliveryId
    (invalidRequest "delivery_id must be an opaque 8-64 character identifier")
  return { owner, repository, commit, skillPath := (source.get? "skill_path").getD .null, maxAmountMinor, deliveryId }

/-- Validate and normalize a loaded request; the path comes last. -/
def parseFreshValidationRequest (value : Loaded) : Except Raised ValidationRequest := do
  let checked ← checkRequest value
  let skillPath ← validateSkillPath checked.skillPath
  return {
    source := { owner := checked.owner, repository := checked.repository, commit := checked.commit, skillPath },
    maxAmountMinor := checked.maxAmountMinor, deliveryId := checked.deliveryId }

/-- The text of a body, loaded and parsed. -/
def readRequest (depth : Nat) (text : String) : Except Thrown ValidationRequest := do
  let value ← loadStrictCommerceJson depth text
  (parseFreshValidationRequest value).mapError .raised

/-- A request, or a rejection of the input. -/
def Answered (result : Except Thrown ValidationRequest) : Prop := result.RaisesOnly Thrown.Rejection

/-- A source that is in order up to its path. -/
structure SourceFits (origin : Loaded) (path : Text) : Prop where
  members : origin.hasExactly ["commit", "host", "owner", "repository", "skill_path"] = true
  host : stringAt origin "host" = some "github.com"
  owner : ∃ text, stringAt origin "owner" = some text ∧ Pattern.owner text = true
  repository : ∃ text, stringAt origin "repository" = some text ∧ Pattern.repository text = true
  commit : ∃ text, stringAt origin "commit" = some text ∧ Pattern.commit text = true
  skillPath : origin.get? "skill_path" = some (.text path)

structure MaximumFits (price : Loaded) : Prop where
  members : price.hasExactly ["amount_minor", "currency"] = true
  currency : stringAt price "currency" = some freshValidationCurrency
  amount : ∃ number, price.get? "amount_minor" = some (.int number) ∧ 0 ≤ number ∧ number ≤ 1000000

/-- A document that is in order up to the path of its source. -/
structure ComesTo (value : Loaded) (path : Text) : Prop where
  members : value.hasExactly
    ["delivery_id", "max_price", "operation", "profile", "schema_version", "source"] = true
  schemaVersion : stringAt value "schema_version" = some "1.0.0"
  operation : stringAt value "operation" = some "fresh_public_static_validation"
  profile : stringAt value "profile" = some freshValidationProfile
  source : ∃ origin, value.get? "source" = some origin ∧ SourceFits origin path
  maximum : ∃ price, value.get? "max_price" = some price ∧ MaximumFits price
  deliveryId : ∃ text, stringAt value "delivery_id" = some text ∧ Pattern.deliveryId text = true

theorem matchingMember_eq_ok {value : Loaded} {name text : String} {pattern : String → Bool} {error : Raised} :
    matchingMember value name pattern error = .ok text ↔ stringAt value name = some text ∧ pattern text = true := by
  simp only [matchingMember, Except.bind_eq_ok_iff, Except.ofOption_eq_ok_iff, require_eq_ok, exists_const,
    Except.pure_eq_ok_iff]
  constructor
  · rintro ⟨found, hFound, hPattern, rfl⟩
    exact ⟨hFound, hPattern⟩
  · rintro ⟨hFound, hPattern⟩
    exact ⟨text, hFound, hPattern, rfl⟩

theorem checkSource_iff {origin : Loaded} {path : Text} :
    (∃ found, checkSource origin = .ok found) ∧ (origin.get? "skill_path").getD .null = .text path ↔
      SourceFits origin path := by
  simp only [checkSource, exactObject, exactly, Except.bind_eq_ok_iff, require_eq_ok, exists_const,
    matchingMember_eq_ok, Except.pure_eq_ok_iff]
  have hPath : (origin.get? "skill_path").getD .null = .text path ↔ origin.get? "skill_path" = some (.text path) := by
    cases origin.get? "skill_path" <;> simp
  rw [hPath]
  constructor
  · rintro ⟨⟨_, hMembers, hHost, owner, hOwner, repository, hRepository, commit, hCommit, _⟩, hPath⟩
    exact ⟨hMembers, hHost, ⟨owner, hOwner⟩, ⟨repository, hRepository⟩, ⟨commit, hCommit⟩, hPath⟩
  · rintro ⟨hMembers, hHost, ⟨owner, hOwner⟩, ⟨repository, hRepository⟩, ⟨commit, hCommit⟩, hPath⟩
    exact ⟨⟨_, hMembers, hHost, owner, hOwner, repository, hRepository, commit, hCommit, rfl⟩, hPath⟩

theorem checkMaximum_iff {price : Loaded} : (∃ amount, checkMaximum price = .ok amount) ↔ MaximumFits price := by
  simp only [checkMaximum, exactObject, exactly, Except.bind_eq_ok_iff, require_eq_ok, exists_const,
    Except.ofOption_eq_ok_iff, Option.bind_eq_some_iff, Loaded.int?_eq_some, Except.pure_eq_ok_iff]
  constructor
  · rintro ⟨_, hMembers, hCurrency, number, ⟨_, hFound, rfl⟩, hRange, _⟩
    exact ⟨hMembers, hCurrency, number, hFound, hRange⟩
  · rintro ⟨hMembers, hCurrency, number, hFound, hRange⟩
    exact ⟨_, hMembers, hCurrency, number, ⟨_, hFound, rfl⟩, hRange, rfl⟩

/-- What is no object has no members. -/
theorem getD_null {found : Option Loaded} {good : Loaded → Prop} (hNull : ¬ good .null) :
    good (found.getD .null) ↔ ∃ value, found = some value ∧ good value := by
  cases found with
  | none => simp [hNull]
  | some value => simp

/-- What passes every check before the one of its path. -/
theorem checkRequest_iff {value : Loaded} {path : Text} :
    (∃ checked, checkRequest value = .ok checked ∧ checked.skillPath = .text path) ↔ ComesTo value path := by
  have hSource := @getD_null (value.get? "source") (fun origin => SourceFits origin path) fun fits =>
    Bool.false_ne_true fits.members
  have hMaximum := @getD_null (value.get? "max_price") MaximumFits fun fits => Bool.false_ne_true fits.members
  simp only [checkRequest, exactObject, exactly, Except.bind_eq_ok_iff, require_eq_ok, exists_const,
    matchingMember_eq_ok, Except.pure_eq_ok_iff]
  constructor
  · rintro ⟨_, ⟨hMembers, hVersion, hOperation, hProfile, found, hFound, amount, hAmount, text, hText, rfl⟩, hPath⟩
    exact ⟨hMembers, hVersion, hOperation, hProfile, hSource.mp (checkSource_iff.mp ⟨⟨found, hFound⟩, hPath⟩),
      hMaximum.mp (checkMaximum_iff.mp ⟨amount, hAmount⟩), ⟨text, hText⟩⟩
  · intro comes
    obtain ⟨⟨found, hFound⟩, hPath⟩ := checkSource_iff.mpr (hSource.mpr comes.source)
    obtain ⟨amount, hAmount⟩ := checkMaximum_iff.mpr (hMaximum.mpr comes.maximum)
    obtain ⟨text, hText⟩ := comes.deliveryId
    exact ⟨_, ⟨comes.members, comes.schemaVersion, comes.operation, comes.profile, found, hFound, amount, hAmount, text,
      hText, rfl⟩, hPath⟩

theorem buildFrom_raisesOnly (seen : List Text) (pairs : List (Text × Loaded)) :
    (buildFrom seen pairs).RaisesOnly Rejects := by
  induction pairs generalizing seen with
  | nil => exact Except.raisesOnly_ok ()
  | cons pair rest ih => exact (Except.raisesOnly_require trivial).bind fun _ _ => ih _

theorem matchingMember_raisesOnly {value : Loaded} {name message code : String} {pattern : String → Bool} :
    (matchingMember value name pattern (rejected message code)).RaisesOnly Rejects :=
  (Except.raisesOnly_ofOption trivial).bind fun _ _ => (Except.raisesOnly_require trivial).bind fun _ _ =>
    Except.raisesOnly_ok _

theorem checkSource_raisesOnly (source : Loaded) : (checkSource source).RaisesOnly Rejects :=
  (Except.raisesOnly_require trivial).bind fun _ _ => (Except.raisesOnly_require trivial).bind fun _ _ =>
    matchingMember_raisesOnly.bind fun _ _ => matchingMember_raisesOnly.bind fun _ _ =>
      matchingMember_raisesOnly.bind fun _ _ => Except.raisesOnly_ok _

theorem checkMaximum_raisesOnly (maximum : Loaded) : (checkMaximum maximum).RaisesOnly Rejects :=
  (Except.raisesOnly_require trivial).bind fun _ _ => (Except.raisesOnly_require trivial).bind fun _ _ =>
    (Except.raisesOnly_ofOption trivial).bind fun _ _ => (Except.raisesOnly_require trivial).bind fun _ _ =>
      Except.raisesOnly_ok _

theorem checkRequest_raisesOnly (value : Loaded) : (checkRequest value).RaisesOnly Rejects :=
  (Except.raisesOnly_require trivial).bind fun _ _ => (Except.raisesOnly_require trivial).bind fun _ _ =>
    (Except.raisesOnly_require trivial).bind fun _ _ => (Except.raisesOnly_require trivial).bind fun _ _ =>
      (checkSource_raisesOnly _).bind fun _ _ => (checkMaximum_raisesOnly _).bind fun _ _ =>
        matchingMember_raisesOnly.bind fun _ _ => Except.raisesOnly_ok _

/-- The contract's check of a path rejects. -/
theorem validatePath_raisesOnly (path : String) : (VouchSpec.validateSkillPath (.str path)).RaisesOnly Rejects :=
  (Except.raisesOnly_require trivial).bind fun _ _ => (Except.raisesOnly_require trivial).bind fun _ _ =>
    (Except.raisesOnly_require trivial).bind fun _ _ => (Except.raisesOnly_require trivial).bind fun _ _ =>
      Except.raisesOnly_ok _

/-- A path is refused as the contract refuses it, unless it has a surrogate. -/
theorem validateSkillPath_raisesOnly_iff {value : Loaded} :
    (validateSkillPath value).RaisesOnly Rejects ↔ ∀ path, value = .text path → (Text.encode? path).isSome = true := by
  cases value with
  | text path =>
      simp only [Loaded.text.injEq, forall_eq']
      change (Except.ofOption Raised.unicodeEncodeError (Text.encode? path) >>= fun text =>
        VouchSpec.validateSkillPath (.str text)).RaisesOnly Rejects ↔ _
      cases hPath : Text.encode? path with
      | none =>
          simp only [Option.isSome_none, Bool.false_eq_true, iff_false]
          intro raises
          exact raises .unicodeEncodeError rfl
      | some text =>
          simp only [Option.isSome_some, iff_true]
          exact validatePath_raisesOnly text
  | _ =>
      simp only [reduceCtorEq, false_implies, implies_true, iff_true]
      exact Except.raisesOnly_error trivial

/-- The parser rejects what it does not return, unless it comes to a path with a surrogate. -/
theorem parse_raisesOnly_iff {value : Loaded} : (parseFreshValidationRequest value).RaisesOnly Rejects ↔
    ∀ path, ComesTo value path → (Text.encode? path).isSome = true := by
  simp only [parseFreshValidationRequest, Except.raisesOnly_bind_iff, checkRequest_raisesOnly value, true_and,
    validateSkillPath_raisesOnly_iff, ← checkRequest_iff]
  constructor
  · rintro raises path ⟨checked, hChecked, hPath⟩
    exact (raises checked hChecked).1 path hPath
  · intro encodes checked hChecked
    exact ⟨fun path hPath => encodes path ⟨checked, hChecked, hPath⟩, fun _ _ => Except.raisesOnly_ok _⟩

/-- The loader rejects what it does not load, unless it stops at its bounds. -/
theorem load_raisesOnly_iff (depth : Nat) (text : String) :
    (loadStrictCommerceJson depth text).RaisesOnly Thrown.Rejection ↔ Loaded.Confined buildObject depth text.toList := by
  rw [loadStrictCommerceJson, Except.raisesOnly_mapError_iff]
  by_cases hConfined : Loaded.Confined buildObject depth text.toList
  · rw [Loaded.load_of_confined hConfined]
    simp only [hConfined, iff_true]
    refine Loaded.read_raisesOnly ?_ ?_ text.toList
    · trivial
    · intro members error hError
      exact buildFrom_raisesOnly [] members error hError
  · simp only [hConfined, iff_false]
    intro raises
    obtain ⟨stop, hStop, hBounds⟩ := Loaded.load_stop_iff text.toList |>.mpr hConfined
    have hRejection := raises stop hStop
    cases stop <;> trivial

/-- A body gets an answer exactly when the reading of its text never comes to a container too
deep or an integer too long, and when its path, where everything else is in order, has no
surrogate. -/
theorem readRequest_answered_iff (depth : Nat) (text : String) :
    Answered (readRequest depth text) ↔ Loaded.Confined buildObject depth text.toList ∧
      ∀ value path, Loaded.read buildObject text.toList = .ok value → ComesTo value path →
        (Text.encode? path).isSome = true := by
  simp only [Answered, readRequest, Except.raisesOnly_bind_iff, load_raisesOnly_iff, Except.raisesOnly_mapError_iff]
  refine and_congr_right fun hConfined => ?_
  simp only [loadStrictCommerceJson, Loaded.load_of_confined hConfined, Except.mapError_eq_ok_iff]
  constructor
  · intro raises value path hValue comes
    exact parse_raisesOnly_iff.mp (raises value hValue) path comes
  · intro encodes value hValue
    exact parse_raisesOnly_iff.mpr fun path comes => encodes value path hValue comes

/-- The pieces of a request in order, but for the path: JSON writes a surrogate in it. -/
def surrogatePieces : List (List Char) :=
  ["\x7b\"schema_version\":\"1.0.0\",".toList, "\"operation\":\"fresh_public_static_validation\",".toList,
    "\"profile\":\"vouchspec-public-static-v1\",".toList, "\"delivery_id\":\"delivery\",".toList,
    "\"max_price\":\x7b\"currency\":\"usd\",\"amount_minor\":25\x7d,".toList,
    "\"source\":\x7b\"host\":\"github.com\",\"owner\":\"o\",\"repository\":\"r\",".toList,
    "\"commit\":\"0123456789012345678901234567890123456789\",".toList, "\"skill_path\":\"\\ud800\"\x7d\x7d".toList]

def surrogatePath : String := String.ofList surrogatePieces.flatten

/-- The exception of a path with a surrogate. -/
def unencodable : Except Thrown ValidationRequest → Bool
  | .error (.raised .unicodeEncodeError) => true
  | _ => false

theorem not_answered_of_unencodable {result : Except Thrown ValidationRequest} (h : unencodable result = true) :
    ¬Answered result := by
  intro answered
  unfold unencodable at h
  split at h
  · exact answered _ rfl
  · exact Bool.false_ne_true h

theorem surrogatePath_unencodable : unencodable (readRequest 1000 surrogatePath) = true := by
  simp only [readRequest, loadStrictCommerceJson, surrogatePath, String.toList_ofList]
  decide +kernel

theorem surrogatePath_not_answered : ¬ ∀ depth text, Answered (readRequest depth text) := by
  intro answered
  exact not_answered_of_unencodable surrogatePath_unencodable (answered 1000 surrogatePath)

section
variable {value : Json}

mutual
/-- The loaded form of a document without surrogates. -/
def ofJson : Json → Loaded
  | .null => .null
  | .bool value => .bool value
  | .int value => .int value
  | .str value => .text (Text.ofString value)
  | .arr items => .list (ofItems items)
  | .obj members => .dict (ofMembers members)
def ofItems : List Json → List Loaded
  | [] => []
  | item :: rest => ofJson item :: ofItems rest
def ofMembers : List (String × Json) → List (Text × Loaded)
  | [] => []
  | (name, value) :: rest => (Text.ofString name, ofJson value) :: ofMembers rest
end

theorem ofMembers_eq (members : List (String × Json)) :
    ofMembers members = members.map fun member => (Text.ofString member.1, ofJson member.2) := by
  induction members with
  | nil => rfl
  | cons member rest ih => rw [ofMembers, List.map_cons, ih]

theorem get?_ofJson (name : String) : (ofJson value).get? name = (value.get? name).map ofJson := by
  cases value with
  | obj members =>
      rw [ofJson, Loaded.get?, Json.get?, ofMembers_eq, List.find?_map, Option.map_map, Option.map_map]
      simp only [Function.comp_def, Text.ofString_inj]
  | _ => rfl

theorem string?_ofJson : (ofJson value).string? = value.str? := by
  cases value with
  | str text => exact Text.encode?_ofString text
  | _ => rfl

theorem int?_ofJson : (ofJson value).int? = value.int? := by
  cases value <;> rfl

theorem intAt_ofJson (name : String) :
    ((ofJson value).get? name).bind Loaded.int? = (value.get? name).bind Json.int? := by
  rw [get?_ofJson, Option.bind_map]
  exact congrArg _ (funext fun _ => int?_ofJson)

theorem stringAt_ofJson (name : String) : stringAt (ofJson value) name = (value.get? name).bind Json.str? := by
  rw [stringAt, get?_ofJson, Option.bind_map]
  exact congrArg _ (funext fun _ => string?_ofJson)

theorem hasExactly_ofJson (names : List String) : (ofJson value).hasExactly names = value.hasExactly names := by
  cases value with
  | obj members =>
      simp only [ofJson, Loaded.hasExactly, Json.hasExactly, ofMembers_eq, List.all_map, List.any_map,
        Function.comp_def, Text.ofString_inj]
      simp only [List.any_eq, decide_eq_true_eq, exists_eq_right']
  | _ => rfl

theorem getD_ofJson (name : String) : ((ofJson value).get? name).getD .null = ofJson ((value.get? name).getD .null) := by
  rw [get?_ofJson]
  cases value.get? name <;> rfl

theorem exactObject_ofJson (names : List String) (name : String) :
    exactObject (ofJson value) names name = VouchSpec.exactObject value names name := by
  rw [exactObject, hasExactly_ofJson, VouchSpec.exactObject]

theorem exactly_ofJson (name expected : String) (error : Raised) :
    exactly (ofJson value) name expected error = VouchSpec.exactly value name expected error := by
  refine require_congr ?_
  rw [stringAt_ofJson, Option.bind_eq_some_iff]
  simp only [Json.str?_eq_some, exists_eq_right]

theorem matchingMember_ofJson (name : String) (pattern : String → Bool) (error : Raised) :
    matchingMember (ofJson value) name pattern error = VouchSpec.matchingMember value name pattern error := by
  rw [matchingMember, stringAt_ofJson, VouchSpec.matchingMember]

theorem validateSkillPath_ofJson : validateSkillPath (ofJson value) = VouchSpec.validateSkillPath value := by
  cases value with
  | str path =>
      change (Except.ofOption Raised.unicodeEncodeError (Text.encode? (Text.ofString path)) >>= _) = _
      rw [Text.encode?_ofString]
      rfl
  | _ => rfl

/-- A document without surrogates is parsed as the contract parses it. -/
theorem parse_ofJson (value : Json) :
    parseFreshValidationRequest (ofJson value) = VouchSpec.parseFreshValidationRequest value := by
  simp only [parseFreshValidationRequest, checkRequest, checkSource, checkMaximum, VouchSpec.parseFreshValidationRequest,
    exactObject_ofJson, exactly_ofJson, matchingMember_ofJson, getD_ofJson, intAt_ofJson, bind_assoc, pure_bind,
    validateSkillPath_ofJson]

end

end VouchSpec.StrictJson
