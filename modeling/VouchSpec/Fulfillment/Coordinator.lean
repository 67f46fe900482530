import VouchSpec.Access.Shop
import VouchSpec.Library.Outline

/-! The sandbox fulfillment coordinator: freezing, the worker, signing, the costs,
delivery and publication of one order, step by step. Every step may raise on its
own; what the worker and the signer produce is the attempt's. The calls on one
order share the order's directory under the delivery root. -/

namespace VouchSpec

namespace Fulfillment

/-- The directory of an order's delivery, with `receipt.dsse.json` once written. -/
structure Job where
  envelope : Option Bytes := none
deriving DecidableEq

/-- What a call has done so far. -/
inductive Deed where
  | admitted
  | foundDelivered
  | made
  | began
  | worked
  | signed (envelope : Bytes)
  | delivered
  | published (envelope : Bytes)
deriving DecidableEq

/-- The two stores, the order's directory, and a journal of the calls' deeds. -/
structure Workshop (Caller : Type) where
  shop : Shop
  job : Option Job := none
  journal : List (Caller × Deed) := []

/-- The steps of a call that may raise on their own. -/
inductive Stage where
  | makeDirectory
  | begin
  | request
  | freeze
  | work
  | sign
  | costs
  | manifest
  | deliver
  | read
  | publish
  | review
  | fail
deriving DecidableEq

/-- What the signer writes and reports. -/
structure Signing where
  envelope : Bytes
  evidence : Commerce.Evidence

/-- One call of `fulfill`: its arguments, the clock it reads, where its steps raise,
and what its worker and its signer make. A signer that raises may leave a file. -/
structure Attempt where
  directCosts : List (String × Json)
  publishes : Bool
  signing : Signing
  leftover : Option Bytes := none
  utcNow : Stage → Int
  fault : Stage → Option Raised := fun _ => none

variable {Caller : Type}

/-- The steps of a call. -/
abbrev Steps (Caller Value : Type) := Program (Workshop Caller) Raised Value

def Workshop.log (workshop : Workshop Caller) (caller : Caller) (deed : Deed) : Workshop Caller :=
  { workshop with journal := workshop.journal ++ [(caller, deed)] }

/-- Write `receipt.dsse.json`. -/
def Workshop.write (workshop : Workshop Caller) (envelope : Bytes) : Workshop Caller :=
  { workshop with job := workshop.job.map fun job => { job with envelope := some envelope } }

def note (caller : Caller) (deed : Deed) : Routine (Workshop Caller) Raised Unit :=
  fun workshop => (.ok (), workshop.log caller deed)

/-- The step raises when the attempt says so. -/
def Attempt.reaches (attempt : Attempt) (stage : Stage) : Except Raised Unit :=
  match attempt.fault stage with
  | some error => .error error
  | none => .ok ()

/-- A transaction of the commerce store. -/
def commerceCall {Value : Type} (attempt : Attempt) (stage : Stage)
    (body : Commerce → Except Raised (Commerce × Value)) : Routine (Workshop Caller) Raised Value :=
  .transaction fun workshop => do
    attempt.reaches stage
    let (commerce, value) ← body workshop.shop.commerce
    return ({ workshop with shop := { workshop.shop with commerce } }, value)

/-- `set(direct_costs_minor) == set(DIRECT_COST_CATEGORIES)`. -/
def Attempt.coversCosts (attempt : Attempt) : Bool :=
  (attempt.directCosts.all fun cost => DirectCost.all.any fun category => category.value = cost.1) &&
    DirectCost.all.all fun category => attempt.directCosts.any fun cost => cost.1 = category.value

/-- The checks of an order that is not delivered. -/
def requireReady (attempt : Attempt) (order : OrderView) : Except Raised Unit := do
  require (order.orderStatus = .queued ∧
      (order.paymentStatus = .captured ∨ order.paymentStatus = .available) ∧
      order.countsForGoal = false ∧ order.settlementStatus = "sandbox_nonsettling")
    (rejected "sandbox order is not ready for fulfillment" "order_not_fulfillable")
  require (attempt.coversCosts = true)
    (rejected "all direct cost categories are required" "invalid_cost_record")

section
variable (p : Platform) (orderId : String) (caller : Caller) (attempt : Attempt)

/-- The order is read; one that is not delivered must be ready. -/
def assess : Routine (Workshop Caller) Raised OrderView := do
  let order ← Routine.reading fun workshop => workshop.shop.commerce.getOrder orderId
  if order.orderStatus = .delivered then do
    note caller .foundDelivered
    return order
  else do
    Routine.reading fun _ => requireReady attempt order
    note caller .admitted
    return order

/-- `job_root.exists()`. -/
def requireNoDirectory : Routine (Workshop Caller) Raised Unit :=
  .reading fun workshop => require (workshop.job = none)
    (rejected "delivery job directory already exists" "delivery_output_exists")

/-- `job_root.mkdir(parents=True)`, which raises when the directory is there. -/
def makeDirectory : Routine (Workshop Caller) Raised Unit := do
  Routine.transaction fun workshop => do
    attempt.reaches .makeDirectory
    require (workshop.job = none) .fileError
    return ({ workshop with job := some {} }, ())
  note caller .made

/-- The part of the source reference that the cost key repeats. -/
def jobDigest : Except Raised String := do
  require (Bytes.isAscii orderId) .unicodeEncodeError
  return (p.sha256 (Bytes.ascii orderId)).hexPrefix 24

def begin (job : String) : Routine (Workshop Caller) Raised OrderView := do
  note caller .began
  commerceCall attempt .begin fun db =>
    db.beginFulfillment p orderId ("job_" ++ job) (p.timestamp (attempt.utcNow .begin))

def readRequest : Routine (Workshop Caller) Raised ValidationRequest :=
  .reading fun workshop => do
    attempt.reaches .request
    workshop.shop.commerce.getOrderRequest orderId

def work : Routine (Workshop Caller) Raised Unit := do
  note caller .worked
  Routine.reading fun _ => attempt.reaches .work

/-- The signer writes the envelope and reports it, or raises. -/
def sign : Routine (Workshop Caller) Raised Signing := fun workshop =>
  match attempt.fault .sign with
  | some error => (.error error, match attempt.leftover with
      | some envelope => workshop.write envelope
      | none => workshop)
  | none => (.ok attempt.signing,
      (workshop.write attempt.signing.envelope).log caller (.signed attempt.signing.envelope))

def recordCosts (job : String) : Routine (Workshop Caller) Raised OrderView :=
  commerceCall attempt .costs fun db =>
    db.recordDirectCosts p orderId attempt.directCosts ("cost_" ++ job)
      (some (p.timestamp (attempt.utcNow .costs))) (attempt.utcNow .costs)

def deliver (job : String) (signing : Signing) : Routine (Workshop Caller) Raised OrderView := do
  let delivered ← commerceCall attempt .deliver fun db =>
    db.deliver p orderId signing.evidence ("job_" ++ job) (p.timestamp (attempt.utcNow .deliver))
  note caller .delivered
  return delivered

/-- `envelope_path.read_bytes()`. -/
def readEnvelope : Routine (Workshop Caller) Raised Bytes :=
  .reading fun workshop => do
    attempt.reaches .read
    Except.ofOption .fileError (workshop.job.bind Job.envelope)

def publishEnvelope (envelope : Bytes) : Routine (Workshop Caller) Raised Unit := do
  Routine.transaction fun workshop => do
    attempt.reaches .publish
    let (access, _) ← workshop.shop.access.publishResult p workshop.shop.commerce orderId envelope none
      (attempt.utcNow .publish)
    return ({ workshop with shop := { workshop.shop with access } }, ())
  note caller (.published envelope)

def failFulfillment (job : String) : Routine (Workshop Caller) Raised OrderView :=
  commerceCall attempt .fail fun db =>
    db.failFulfillment p orderId ("job_" ++ job) (p.timestamp (attempt.utcNow .fail))

end

section
variable (p : Platform) (orderId : String) (caller : Caller) (attempt : Attempt)

/-- The publication, when the coordinator has an access store. -/
def publish : Steps Caller Unit :=
  if attempt.publishes then do
    let envelope ← .once (readEnvelope attempt)
    .once (publishEnvelope p orderId caller attempt envelope)
  else pure ()

/-- The steps from the beginning of fulfillment to the delivery. -/
def produce (job : String) : Steps Caller OrderView := do
  let _ ← .once (begin p orderId caller attempt job)
  let _ ← .once (readRequest orderId attempt)
  .check (attempt.reaches .freeze)
  .once (work caller attempt)
  let signing ← .once (sign caller attempt)
  let _ ← .once (recordCosts p orderId attempt job)
  .check (attempt.reaches .manifest)
  .once (deliver p orderId caller attempt job signing)

/-- The exception handler, whose own exceptions are dropped. -/
def recover (job : String) : Steps Caller Unit := do
  let current ← .once (.reading fun workshop => do
    attempt.reaches .review
    workshop.shop.commerce.getOrder orderId)
  if current.orderStatus = .queued ∨ current.orderStatus = .running then do
    let _ ← .once (failFulfillment p orderId attempt job)
    pure ()
  else pure ()

/-- The body of `fulfill` under its exception handler. -/
def pursue (job : String) : Steps Caller OrderView :=
  (do
    let delivered ← produce p orderId caller attempt job
    publish p orderId caller attempt
    return delivered).rescue fun error => do
      (recover p orderId attempt job).rescue fun _ => pure ()
      .check (.error error)

def fulfill : Steps Caller OrderView := do
  let order ← .once (assess orderId caller attempt)
  if order.orderStatus = .delivered then do
    publish p orderId caller attempt
    return order
  else do
    .once requireNoDirectory
    .once (makeDirectory caller attempt)
    let job ← .check (jobDigest p orderId)
    pursue p orderId caller attempt job

end

/-- A step of one of the calls, or the ingestion of a provider event. -/
inductive Step (Caller : Type) where
  | call (caller : Caller)
  | event (eventValue : Json) (receivedAt : Option String) (utcNow : Int)

/-- The calls side by side over the workshop. -/
abbrev Floor (Caller : Type) := Pool Caller (Workshop Caller) Raised OrderView

def Workshop.ingest (p : Platform) (workshop : Workshop Caller) (eventValue : Json)
    (receivedAt : Option String) (utcNow : Int) : Workshop Caller :=
  { workshop with shop := { workshop.shop with
      commerce := workshop.shop.commerce.step p (.ingestProviderEvent eventValue receivedAt utcNow) } }

namespace Floor

variable [DecidableEq Caller]

def step (p : Platform) (floor : Floor Caller) : Step Caller → Floor Caller
  | .call caller => floor.advance caller
  | .event eventValue receivedAt utcNow =>
      { floor with state := floor.state.ingest p eventValue receivedAt utcNow }

/-- The calls on one order before their first steps. -/
def opening (p : Platform) (orderId : String) (workshop : Workshop Caller)
    (attempts : Caller → Attempt) : Floor Caller where
  state := workshop
  threads caller := fulfill p orderId caller (attempts caller)

def run (p : Platform) (floor : Floor Caller) (steps : List (Step Caller)) : Floor Caller :=
  Runs.run (step p) floor steps

end Floor

end Fulfillment

end VouchSpec
