import VouchSpec.Library.Routine
import VouchSpec.Library.Script

/-! The remedy executor: one run reconciles payments, claims a remedy, sends it and asks
for its confirmation. What it has done so far is the state of a run; the server and the
wallet answer from it. -/

namespace VouchSpec

namespace Remedy

open Script

/-- What a run throws: `RemedyExecutorError` with its code, or something else. -/
inductive Failure where
  | executor (code : String)
  | other
deriving DecidableEq

structure Network where
  cdp : String
  asset : String
  amount : Nat
deriving DecidableEq

def remedyVersion : String := "vouchspec-onchain-remedy-v1"

def reconciliationVersion : String := "vouchspec-payment-reconciliation-v1"

def maxResponseBytes : Nat := 1000000

/-- `USDC_BY_NETWORK`. -/
def usdcByNetwork : List (String × Network) :=
  [("eip155:84532", ⟨"base-sepolia", "0x036CbD53842c5426634e7929541eC2318f3dCF7e", 1000000⟩),
    ("eip155:8453", ⟨"base", "0x833589fCD6eDb6E08f4c7C32D4f71b54bdA02913", 250000⟩)]

/-- What every object inherits, and so `USDC_BY_NETWORK` too. -/
def inherited : List String :=
  ["constructor", "__proto__", "hasOwnProperty", "isPrototypeOf", "propertyIsEnumerable", "toLocaleString",
    "toString", "valueOf", "__defineGetter__", "__defineSetter__", "__lookupGetter__", "__lookupSetter__"]

/-- `UUID_V4_RE`. -/
def uuidV4 : List (UInt16 → Bool) :=
  hexDigits 8 ++ among "-" :: hexDigits 4 ++ among "-" :: among "4" :: hexDigits 3 ++ among "-" :: among "89abAB" ::
    hexDigits 3 ++ among "-" :: hexDigits 12

/-- `LEASE_RE`. -/
def lease : List (UInt16 → Bool) :=
  hexDigits 8 ++ among "-" :: hexDigits 4 ++ among "-" :: among "12345" :: hexDigits 3 ++ among "-" ::
    among "89abAB" :: hexDigits 3 ++ among "-" :: hexDigits 12

/-- `TX_RE`. -/
def transactionHash : List (UInt16 → Bool) := among "0" :: among "xX" :: hexDigits 64

/-- What the executor takes from its packages. -/
structure Packages where
  getAddress : Value → Option Units
  /-- `encodeFunctionData` for `transfer`, with its two arguments. -/
  encodeTransfer : Units → Nat → Units

structure Config where
  apiBaseUrl : Units
  remedyToken : Units
  workerId : Units
  accountAddress : Units

/-- The argument of `sendTransaction`. -/
structure Transfer where
  address : Units
  network : String
  idempotencyKey : Units
  recipient : Units
  data : Units
  value : Nat
deriving DecidableEq

/-- The body of a request. -/
inductive Body where
  | version (workerVersion : String)
  | confirm (leaseToken : Value) (transaction : Units)

inductive Action where
  | post (path : Units) (body : Body)
  | send (transfer : Transfer)
  | wait (milliseconds : Nat)

/-- A response; a chunk that cannot be read is none. -/
structure Response where
  status : Nat
  contentLength : Option Units := none
  body : Option (List (Option Bytes)) := none

/-- The server and the wallet, which answer from all that has been done. -/
structure World where
  fetch : List Action → Option Response
  send : List Action → Option (Option Value)

/-- `regex.test(value)`. -/
def test (host : Host) (pattern : List (UInt16 → Bool)) (value : Value) : Except Failure Bool := do
  let text ← Except.ofOption .other (value.text? host)
  return fits pattern text

def exactKeys (value : Value) (keys : List String) (code : String) : Except Failure Unit :=
  require (value.hasKeys keys = true) (.executor code)

/-- The chunks of a body together. -/
def readChunks : Nat → List (Option Bytes) → Except Failure Bytes
  | _, [] => .ok []
  | _, none :: _ => .error .other
  | total, some chunk :: rest => do
      require (total + chunk.length ≤ maxResponseBytes) (.executor "executor_api_response_invalid")
      let later ← readChunks (total + chunk.length) rest
      return chunk ++ later

/-- `readBoundedJson`. -/
def readBoundedJson (host : Host) (response : Response) : Except Failure Value := do
  match response.contentLength with
  | none => pure ()
  | some length => do
      require (isDigits length = true ∧ ofDigits length ≤ maxResponseBytes) (.executor "executor_api_response_invalid")
  match response.body with
  | none => return .null
  | some chunks => do
      let bytes ← readChunks 0 chunks
      if bytes = [] then return .null
      else Except.ofOption (.executor "executor_api_response_invalid") (host.parse bytes)

/-- A run, over what has been done so far. -/
abbrev Run (Result : Type) := Routine (List Action) Failure Result

/-- Do something, and go on with what comes back for it. -/
def perform {Answer Result : Type} (answer : List Action → Answer) (action : Action)
    (next : Answer → Except Failure Result) : Run Result :=
  fun done => (next (answer done), done ++ [action])

def raising {Result : Type} (outcome : Except Failure Result) : Run Result := Routine.reading fun _ => outcome

/-- A status with the value of the response. -/
structure Called where
  status : Nat
  value : Value

/-- What a response to a request amounts to. -/
def interpret (host : Host) : Option Response → Except Failure Called
  | none => .error (.executor "executor_api_unavailable")
  | some response => do
      let value ← readBoundedJson host response
      if response.status = 204 then return ⟨204, .null⟩
      else do
        require (200 ≤ response.status ∧ response.status < 300)
          (.executor (if 500 ≤ response.status then "executor_api_unavailable" else "executor_api_rejected"))
        return ⟨response.status, value⟩

section
variable (host : Host) (world : World)

/-- `callVouchSpec`. -/
def callVouchSpec (path : Units) (body : Body) : Run Called :=
  perform world.fetch (.post path body) (interpret host)

end

/-- What `parseClaim` returns and a run goes on to use. -/
structure Job where
  remedyId : Units
  leaseToken : Value
  idempotencyKey : Units
  destination : Units
  asset : Units
  network : Network

section
variable (host : Host) (packages : Packages)

/-- The member of an object that has it. -/
def field (value : Value) (name : String) : Except Failure Value := Except.ofOption .other (value.member? name)

/-- `USDC_BY_NETWORK[name]`; an inherited property is a value without the fields of a network. -/
def lookupNetwork (name : Value) : Except Failure (Option (Option Network)) := do
  let key ← Except.ofOption .other (name.text? host)
  match usdcByNetwork.find? fun entry => key = units entry.1 with
  | some entry => return some (some entry.2)
  | none => return if inherited.any fun property => key = units property then some none else none

/-- `value.toLowerCase()`, which only a text has. -/
def lowerCase : Value → Except Failure Units
  | .string text => .ok (host.toLowerCase text)
  | _ => .error .other

/-- `parseClaim`. -/
def parseClaim (value : Value) : Except Failure Job := do
  let invalid : Failure := .executor "executor_claim_invalid"
  exactKeys value ["worker_version", "lease_seconds", "job"] "executor_claim_invalid"
  let version ← field value "worker_version"
  let leaseSeconds ← field value "lease_seconds"
  require (version.isText remedyVersion = true ∧ leaseSeconds.isNumber 1200 = true) invalid
  let job ← field value "job"
  exactKeys job ["remedy_id", "lease_token", "idempotency_key", "attempt", "network", "asset", "amount_atomic",
    "destination", "reason", "source_transaction", "checkpoint_block"] "executor_claim_invalid"
  let network ← lookupNetwork host (← field job "network")
  let asset ← Except.ofOption invalid (packages.getAddress (← field job "asset"))
  let destination ← Except.ofOption invalid (packages.getAddress (← field job "destination"))
  let remedyId ← field job "remedy_id"
  require ((← test host uuidV4 remedyId) = true) invalid
  let idempotencyKey ← field job "idempotency_key"
  let loweredKey ← lowerCase host idempotencyKey
  let loweredId ← lowerCase host remedyId
  require (loweredKey = loweredId) invalid
  let leaseToken ← field job "lease_token"
  require ((← test host lease leaseToken) = true) invalid
  let attempt ← Except.ofOption invalid (← field job "attempt").integer?
  require (1 ≤ attempt ∧ attempt ≤ 20) invalid
  let network ← Except.ofOption invalid network
  -- An inherited property has no asset, so that `getAddress` throws.
  let network ← Except.ofOption .other network
  let canonical ← Except.ofOption .other (packages.getAddress (.string (units network.asset)))
  require (asset = canonical) invalid
  require ((← field job "amount_atomic").isText (toString network.amount) = true) invalid
  require ((← field job "reason").isOneOf ["duplicate_settlement", "objective_fulfillment_failure"] = true) invalid
  require ((← test host transactionHash (← field job "source_transaction")) = true) invalid
  let block ← Except.ofOption .other ((← field job "checkpoint_block").text? host)
  require (isDigits block = true) invalid
  match remedyId, idempotencyKey with
  | .string remedyId, .string idempotencyKey =>
      return { remedyId, leaseToken, idempotencyKey, destination, asset, network }
  | _, _ => .error .other

end

/-- How a run ends well. -/
inductive Ended where
  | idle
  | recovered
  | held
  | confirmed
deriving DecidableEq

section
variable (host : Host) (packages : Packages) (config : Config) (world : World)

def reconcilePath : Units := units "/api/vouchspec/v1/internal/payments/reconcile"

def claimPath : Units := units "/api/vouchspec/v1/internal/remedies/claim"

def confirmPath (remedyId : Units) : Units :=
  units "/api/vouchspec/v1/internal/remedies/" ++ remedyId ++ units "/confirm"

/-- The answer to the reconciliation is one of those that are known. -/
def checkReconciliation (called : Called) : Except Failure Unit :=
  if called.status = 204 then .ok ()
  else require ((called.value.member? "worker_version").any (·.isText reconciliationVersion) = true ∧
    (called.value.member? "action").any
      (·.isOneOf ["no_settlement_found", "settlement_recovered", "duplicate_settlement_remedy_queued"]) = true)
    (.executor "executor_reconciliation_invalid")

/-- `runOnce` up to the answer to its claim. -/
def claimRemedy : Run Called := do
  let reconciliation ← callVouchSpec host world reconcilePath (.version reconciliationVersion)
  raising (checkReconciliation reconciliation)
  callVouchSpec host world claimPath (.version remedyVersion)

/-- The arguments of the payment of a job. -/
def transferOf (job : Job) : Transfer where
  address := config.accountAddress
  network := job.network.cdp
  idempotencyKey := job.idempotencyKey
  recipient := job.asset
  data := packages.encodeTransfer job.destination job.network.amount
  value := 0

/-- The hash of the transaction that was sent. -/
def sentHash : Option (Option Value) → Except Failure Value
  | none => .error (.executor "executor_cdp_send_failed")
  | some none => .error (.executor "executor_cdp_response_invalid")
  | some (some hash) => do
      require ((← test host transactionHash hash) = true) (.executor "executor_cdp_response_invalid")
      return hash

/-- The confirmations that are asked for, at most as many as the number says. -/
def confirm (job : Job) (hash : Value) : Nat → Run Ended
  | 0 => raising (.error (.executor "executor_confirmation_pending"))
  | attempts + 1 => do
      let transaction ← raising (lowerCase host hash)
      let confirmation ← callVouchSpec host world (confirmPath job.remedyId) (.confirm job.leaseToken transaction)
      if confirmation.status = 200 ∧ (confirmation.value.member? "action").any (·.isText "confirmed") = true then
        return .confirmed
      else do
        raising (require (confirmation.status = 202 ∧
          (confirmation.value.member? "action").any (·.isText "confirmation_pending") = true)
          (.executor "executor_confirmation_invalid"))
        perform (fun _ => ()) (.wait 5000) .ok
        confirm job hash attempts

/-- `runOnce` from an accepted claim on. -/
def pay (job : Job) : Run Ended := do
  let hash ← perform world.send (.send (transferOf packages config job)) (sentHash host)
  confirm host world job hash 8

/-- An answer with one of the two actions that end a run has these members. -/
def checkEnded (value : Value) (keys : List String) : Except Failure Unit := do
  exactKeys value keys "executor_claim_invalid"
  require ((value.member? "worker_version").any (·.isText remedyVersion) = true) (.executor "executor_claim_invalid")

/-- `runOnce`. -/
def runOnce : Run Ended := do
  let claim ← claimRemedy host world
  if claim.status = 204 then return .idle
  else if (claim.value.member? "action").any (·.isText "recovered_and_confirmed") = true then do
    raising (checkEnded claim.value ["worker_version", "action", "remedy"])
    return .recovered
  else if (claim.value.member? "action").any (·.isText "idempotency_window_closed") = true then do
    raising (checkEnded claim.value ["worker_version", "action"])
    return .held
  else do
    let job ← raising (parseClaim host packages claim.value)
    pay host packages config world job

end

end Remedy

end VouchSpec
