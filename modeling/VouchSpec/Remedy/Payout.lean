import VouchSpec.Library.Document
import VouchSpec.Remedy.Executor

/-! What the executor sends: at most one transfer a run, for a claim that it has accepted,
under the idempotency key as that claim spells it. -/

namespace VouchSpec

namespace Remedy

open Script Routine

/-- The transfers among what has been done. -/
def transfers : List Action → List Transfer
  | [] => []
  | .send transfer :: rest => transfer :: transfers rest
  | .post _ _ :: rest => transfers rest
  | .wait _ :: rest => transfers rest

theorem transfers_append (first second : List Action) :
    transfers (first ++ second) = transfers first ++ transfers second := by
  induction first with
  | nil => rfl
  | cons action rest ih => cases action <;> simp [transfers, ih]

section
variable {Result Next : Type}

/-- A run goes on after what has been done, and sends nothing itself. -/
def Quiet (run : Run Result) : Prop := ∀ done, ∃ more, (run done).2 = done ++ more ∧ transfers more = []

theorem Quiet.transfers {run : Run Result} (quiet : Quiet run) (done : List Action) :
    Remedy.transfers (run done).2 = Remedy.transfers done := by
  obtain ⟨more, hMore, hNone⟩ := quiet done
  rw [hMore, transfers_append, hNone, List.append_nil]

theorem quiet_pure (result : Result) : Quiet (pure result : Run Result) := fun done => ⟨[], by simp [pure], rfl⟩

theorem quiet_raising (outcome : Except Failure Result) : Quiet (raising outcome) :=
  fun done => ⟨[], by simp [raising, reading], rfl⟩

theorem Quiet.bind {run : Run Result} {next : Result → Run Next} (quiet : Quiet run)
    (hNext : ∀ result, Quiet (next result)) : Quiet (run >>= next) := by
  intro done
  obtain ⟨more, hMore, hNone⟩ := quiet done
  simp only [Bind.bind]
  cases hRun : run done with
  | mk outcome after =>
      rw [hRun] at hMore
      subst hMore
      cases outcome with
      | error failure => exact ⟨more, rfl, hNone⟩
      | ok result =>
          obtain ⟨later, hLater, hStill⟩ := hNext result (done ++ more)
          refine ⟨more ++ later, ?_, ?_⟩
          · rw [← List.append_assoc]
            exact hLater
          · rw [transfers_append, hNone, hStill, List.append_nil]

theorem quiet_callVouchSpec (host : Host) (world : World) (path : Units) (body : Body) :
    Quiet (callVouchSpec host world path body) :=
  fun _ => ⟨[.post path body], rfl, rfl⟩

theorem quiet_wait (milliseconds : Nat) : Quiet (perform (fun _ => ()) (.wait milliseconds) .ok) :=
  fun _ => ⟨[.wait milliseconds], rfl, rfl⟩

end

section
variable (host : Host) (packages : Packages) (config : Config) (world : World)

theorem quiet_claimRemedy : Quiet (claimRemedy host world) :=
  (quiet_callVouchSpec _ _ _ _).bind fun _ => (quiet_raising _).bind fun _ => quiet_callVouchSpec _ _ _ _

theorem quiet_confirm (job : Job) (hash : Value) (attempts : Nat) : Quiet (confirm host world job hash attempts) := by
  induction attempts with
  | zero => exact quiet_raising _
  | succ attempts ih =>
      refine (quiet_raising _).bind fun transaction => (quiet_callVouchSpec _ _ _ _).bind fun confirmation => ?_
      split
      · exact quiet_pure _
      · exact (quiet_raising _).bind fun _ => (quiet_wait _).bind fun _ => ih

/-- The two requests that come before a payment. -/
def asked : List Action := [.post reconcilePath (.version reconciliationVersion), .post claimPath (.version remedyVersion)]

/-- The answer to the claim of a run carries this value. -/
def Receives (value : Value) : Prop :=
  ∃ status, status ≠ 204 ∧ (claimRemedy host world []).1 = .ok ⟨status, value⟩

/-- What a whole run sends. -/
def sends : List Transfer := transfers (runOnce host packages config world []).2

variable {host packages config world}

theorem claimRemedy_done {called : Called} (hClaimed : (claimRemedy host world []).1 = .ok called) :
    claimRemedy host world [] = (.ok called, asked) := by
  refine Prod.ext hClaimed ?_
  revert hClaimed
  simp only [claimRemedy, Bind.bind, callVouchSpec, perform, raising, reading]
  cases interpret host (world.fetch []) with
  | error failure => simp
  | ok reconciliation =>
      cases hChecked : checkReconciliation reconciliation with
      | error failure => simp [hChecked]
      | ok => exact fun _ => by simp [hChecked, asked]

/-- A payment is one transfer, and then nothing but requests and pauses. -/
theorem pay_done (job : Job) (done : List Action) : ∃ more,
    (pay host packages config world job done).2 = done ++ .send (transferOf packages config job) :: more ∧
      transfers more = [] := by
  simp only [pay, Bind.bind, perform]
  cases sentHash host (world.send done) with
  | error failure => exact ⟨[], rfl, rfl⟩
  | ok hash =>
      obtain ⟨more, hMore, hNone⟩ := quiet_confirm host world job hash 8 (done ++ [.send (transferOf packages config job)])
      exact ⟨more, by simpa using hMore, hNone⟩

/-- What an accepted claim says, and what has been checked of it. -/
structure Accepts (host : Host) (packages : Packages) (value : Value) (job : Job) : Prop where
  /-- The record of the claim, and its own members. -/
  record : ∃ record, value.member? "job" = some record ∧
    record.member? "remedy_id" = some (.string job.remedyId) ∧
    record.member? "idempotency_key" = some (.string job.idempotencyKey) ∧
    (∃ destination, record.member? "destination" = some destination ∧
      packages.getAddress destination = some job.destination) ∧
    (∃ amount, record.member? "amount_atomic" = some amount ∧ amount.isText (toString job.network.amount) = true) ∧
    ∃ name key, record.member? "network" = some key ∧ key.text? host = some (units name) ∧
      (name, job.network) ∈ usdcByNetwork
  sameId : host.toLowerCase job.idempotencyKey = host.toLowerCase job.remedyId
  canonical : packages.getAddress (.string (units job.network.asset)) = some job.asset
  noAction : value.member? "action" = none

theorem lookupNetwork_eq_ok {key : Value} {network : Network} (hFound : lookupNetwork host key = .ok (some (some network))) :
    ∃ name, key.text? host = some (units name) ∧ (name, network) ∈ usdcByNetwork := by
  simp only [lookupNetwork, Except.bind_eq_ok_iff, Except.ofOption_eq_ok_iff] at hFound
  obtain ⟨text, hText, hFound⟩ := hFound
  split at hFound
  · next entry hEntry =>
      obtain rfl : entry.2 = network := Option.some.inj (Option.some.inj (Except.ok.inj hFound))
      have hName : text = units entry.1 := by simpa using List.find?_some hEntry
      exact ⟨entry.1, hName ▸ hText, List.mem_of_find?_eq_some hEntry⟩
  · have hNone := Except.ok.inj hFound
    split at hNone
    · cases Option.some.inj hNone
    · cases hNone

theorem lowerCase_eq_ok {value : Value} {lowered : Units} (hLowered : lowerCase host value = .ok lowered) :
    ∃ text, value = .string text ∧ host.toLowerCase text = lowered := by
  cases value with
  | string text => exact ⟨text, rfl, Except.ok.inj hLowered⟩
  | _ => cases hLowered

/-- Names that are listed have no member beside them. -/
theorem member?_none_of_hasKeys {value : Value} {names : List String} {name : String} (hKeys : value.hasKeys names = true)
    (hOther : units name ∉ names.map units) : value.member? name = none := by
  cases value with
  | object members =>
      have hPerm : (members.map Prod.fst).Perm (names.map units) := of_decide_eq_true hKeys
      rw [Value.member?, Option.map_eq_none_iff, List.find?_eq_none]
      intro member hMember hName
      refine hOther (hPerm.mem_iff.mp (List.mem_map.mpr ⟨member, hMember, ?_⟩))
      exact of_decide_eq_true hName
  | _ => rfl

theorem parseClaim_eq_ok {value : Value} {job : Job} (hParsed : parseClaim host packages value = .ok job) :
    Accepts host packages value job := by
  simp only [parseClaim, exactKeys, Except.bind_eq_ok_iff, require_eq_ok, exists_const, Except.ofOption_eq_ok_iff,
    field] at hParsed
  obtain ⟨hKeys, _, -, _, -, -, record, hRecord, -, key, hKey, _, hNetwork, _, -, asset, -, _, hDestination,
    destination, hPayee, remedyId, hRemedyId, _, -, -, idempotencyKey, hIdempotencyKey, loweredKey, hLoweredKey,
    loweredId, hLoweredId, hSame, _, -, _, -, -, _, -, _, -, -, _, rfl, network, rfl, canonical, hCanonical, hAsset,
    amount, hAmount, hFixed, _, -, -, _, -, _, -, -, _, -, _, -, -, hJob⟩ := hParsed
  obtain ⟨idText, rfl, hId⟩ := lowerCase_eq_ok hLoweredId
  obtain ⟨keyText, rfl, hKeyText⟩ := lowerCase_eq_ok hLoweredKey
  obtain rfl := Except.ok.inj hJob
  obtain ⟨name, hName, hListed⟩ := lookupNetwork_eq_ok hNetwork
  refine ⟨⟨record, hRecord, hRemedyId, hIdempotencyKey, ⟨_, hDestination, hPayee⟩, ⟨amount, hAmount, hFixed⟩,
    name, key, hKey, hName, hListed⟩, ?_, ?_, ?_⟩
  · rw [hId, hKeyText, hSame]
  · rw [hAsset]
    exact hCanonical
  · exact member?_none_of_hasKeys hKeys (by decide +kernel)

/-- The key of a claim, as the claim spells it. -/
def spelledKey (value : Value) : Option Value := (value.member? "job").bind (Value.member? "idempotency_key")

theorem Accepts.spelledKey {value : Value} {job : Job} (accepts : Accepts host packages value job) :
    spelledKey value = some (.string job.idempotencyKey) := by
  obtain ⟨record, hRecord, -, hKey, -⟩ := accepts.record
  rw [Remedy.spelledKey, hRecord, Option.bind_some, hKey]

/-- A run that is answered with a claim it accepts makes the two requests, then pays. -/
theorem runOnce_of_accepted {value : Value} {job : Job} (hReceived : Receives host world value)
    (hParsed : parseClaim host packages value = .ok job) : ∃ more,
    (runOnce host packages config world []).2 = asked ++ .send (transferOf packages config job) :: more ∧
      transfers more = [] := by
  obtain ⟨status, hStatus, hClaimed⟩ := hReceived
  have hNone := (parseClaim_eq_ok hParsed).noAction
  obtain ⟨more, hMore, hQuiet⟩ := @pay_done host packages config world job asked
  refine ⟨more, ?_, hQuiet⟩
  rw [← hMore, runOnce, bind_of_returns (claimRemedy_done hClaimed)]
  simp only [if_neg hStatus, hNone, Option.any_none, Bool.false_eq_true, if_false]
  rw [bind_of_returns (show Returns (raising (parseClaim host packages value)) asked job asked from
    Prod.ext hParsed rfl)]

/-- Any other run sends nothing. -/
theorem sends_nil (hNone : ¬∃ value job, Receives host world value ∧ parseClaim host packages value = .ok job) :
    sends host packages config world = [] := by
  have hQuiet := (quiet_claimRemedy host world).transfers []
  rw [sends, runOnce]
  cases hRun : claimRemedy host world [] with
  | mk outcome after =>
      rw [hRun] at hQuiet
      cases outcome with
      | error failure =>
          have hRaises : Raises (claimRemedy host world) [] failure after := hRun
          rw [hRaises.bind]
          exact hQuiet
      | ok claim =>
          rw [bind_of_returns hRun]
          split
          · exact hQuiet
          · next hStatus =>
              split
              · exact (((quiet_raising _).bind fun _ => quiet_pure _).transfers after).trans hQuiet
              · split
                · exact (((quiet_raising _).bind fun _ => quiet_pure _).transfers after).trans hQuiet
                · cases hParsed : parseClaim host packages claim.value with
                  | error failure =>
                      have hRaises : Raises (raising (.error failure) : Run Job) after failure after := rfl
                      rw [hRaises.bind]
                      exact hQuiet
                  | ok job =>
                      have hClaimed : (claimRemedy host world []).1 = .ok ⟨claim.status, claim.value⟩ := by rw [hRun]
                      exact absurd ⟨claim.value, job, ⟨claim.status, hStatus, hClaimed⟩, hParsed⟩ hNone

theorem sends_of_accepted {value : Value} {job : Job} (hReceived : Receives host world value)
    (hParsed : parseClaim host packages value = .ok job) :
    sends host packages config world = [transferOf packages config job] := by
  obtain ⟨more, hDone, hQuiet⟩ := @runOnce_of_accepted host packages config world value job hReceived hParsed
  rw [sends, hDone, transfers_append, transfers, hQuiet]
  rfl

end

/-- A transfer is the payment that a claim asks for: the fixed amount of its network, in
the canonical contract there, to its destination, and no value besides. -/
structure Pays (host : Host) (packages : Packages) (config : Config) (value : Value) (transfer : Transfer) : Prop where
  account : transfer.address = config.accountAddress
  nothing : transfer.value = 0
  fixed : ∃ record network name key payee destination, value.member? "job" = some record ∧
    record.member? "network" = some key ∧ key.text? host = some (units name) ∧ (name, network) ∈ usdcByNetwork ∧
    transfer.network = network.cdp ∧
    packages.getAddress (.string (units network.asset)) = some transfer.recipient ∧
    record.member? "destination" = some payee ∧ packages.getAddress payee = some destination ∧
    transfer.data = packages.encodeTransfer destination network.amount

/-- A run sends at most one transfer: after its two requests, for the claim it was
answered with and accepted. -/
structure Disciplined (host : Host) (packages : Packages) (config : Config) (world : World) : Prop where
  atMostOne : (sends host packages config world).length ≤ 1
  earned : ∀ transfer ∈ sends host packages config world, ∃ value job more, Receives host world value ∧
    parseClaim host packages value = .ok job ∧ Pays host packages config value transfer ∧
    (runOnce host packages config world []).2 = asked ++ .send transfer :: more

/-- Two runs that accept claims of one remedy send under one key. -/
def ShareKey (host : Host) (packages : Packages) (configs : Config × Config) (worlds : World × World) : Prop :=
  ∀ first second firstJob secondJob, Receives host worlds.1 first → Receives host worlds.2 second →
    parseClaim host packages first = .ok firstJob → parseClaim host packages second = .ok secondJob →
    host.toLowerCase firstJob.remedyId = host.toLowerCase secondJob.remedyId →
    ∃ firstTransfer secondTransfer, sends host packages configs.1 worlds.1 = [firstTransfer] ∧
      sends host packages configs.2 worlds.2 = [secondTransfer] ∧
      firstTransfer.idempotencyKey = secondTransfer.idempotencyKey

/-- Accepted claims of one remedy spell its key in one way. -/
def SpellAlike (host : Host) (packages : Packages) (worlds : World × World) : Prop :=
  ∀ first second firstJob secondJob, Receives host worlds.1 first → Receives host worlds.2 second →
    parseClaim host packages first = .ok firstJob → parseClaim host packages second = .ok secondJob →
    host.toLowerCase firstJob.remedyId = host.toLowerCase secondJob.remedyId → spelledKey first = spelledKey second

section
variable {host : Host} {packages : Packages} {config : Config} {world : World}

theorem Accepts.pays {value : Value} {job : Job} (accepts : Accepts host packages value job) :
    Pays host packages config value (transferOf packages config job) := by
  obtain ⟨record, hRecord, -, -, ⟨payee, hPayee, hDestination⟩, -, name, key, hKey, hName, hListed⟩ := accepts.record
  exact ⟨rfl, rfl, record, job.network, name, key, payee, job.destination, hRecord, hKey, hName, hListed, rfl,
    accepts.canonical, hPayee, hDestination, rfl⟩

theorem disciplined (host : Host) (packages : Packages) (config : Config) (world : World) :
    Disciplined host packages config world := by
  by_cases hAccepted : ∃ value job, Receives host world value ∧ parseClaim host packages value = .ok job
  · obtain ⟨value, job, hReceived, hParsed⟩ := hAccepted
    have hSends : sends host packages config world = [transferOf packages config job] := sends_of_accepted hReceived hParsed
    obtain ⟨more, hDone, -⟩ := @runOnce_of_accepted host packages config world value job hReceived hParsed
    refine ⟨by rw [hSends]; exact Nat.le_refl 1, ?_⟩
    intro transfer hTransfer
    rw [hSends] at hTransfer
    rw [List.mem_singleton.mp hTransfer]
    exact ⟨value, job, more, hReceived, hParsed, (parseClaim_eq_ok hParsed).pays, hDone⟩
  · have hSends : sends host packages config world = [] := sends_nil hAccepted
    refine ⟨by rw [hSends]; exact Nat.zero_le 1, ?_⟩
    intro transfer hTransfer
    rw [hSends] at hTransfer
    cases hTransfer

end

/-- Every run is disciplined, and two runs share the key of a remedy exactly when their
claims spell it alike. -/
theorem payouts_iff (host : Host) (packages : Packages) (configs : Config × Config) (worlds : World × World) :
    (Disciplined host packages configs.1 worlds.1 ∧ Disciplined host packages configs.2 worlds.2 ∧
      ShareKey host packages configs worlds) ↔ SpellAlike host packages worlds := by
  constructor
  · rintro ⟨-, -, share⟩ first second firstJob secondJob hFirst hSecond hFirstJob hSecondJob hSame
    obtain ⟨one, other, hOne, hOther, hKeys⟩ :=
      share first second firstJob secondJob hFirst hSecond hFirstJob hSecondJob hSame
    rw [sends_of_accepted hFirst hFirstJob] at hOne
    rw [sends_of_accepted hSecond hSecondJob] at hOther
    obtain rfl := (List.cons.inj hOne).1
    obtain rfl := (List.cons.inj hOther).1
    have hJobs : firstJob.idempotencyKey = secondJob.idempotencyKey := hKeys
    rw [(parseClaim_eq_ok hFirstJob).spelledKey, (parseClaim_eq_ok hSecondJob).spelledKey, hJobs]
  · intro alike
    refine ⟨disciplined .., disciplined .., ?_⟩
    intro first second firstJob secondJob hFirst hSecond hFirstJob hSecondJob hSame
    refine ⟨_, _, sends_of_accepted hFirst hFirstJob, sends_of_accepted hSecond hSecondJob, ?_⟩
    have hSpelled := alike first second firstJob secondJob hFirst hSecond hFirstJob hSecondJob hSame
    rw [(parseClaim_eq_ok hFirstJob).spelledKey, (parseClaim_eq_ok hSecondJob).spelledKey] at hSpelled
    exact Value.string.inj (Option.some.inj hSpelled)

mutual
/-- A JSON document as a value of the language. -/
def valueOf : Json → Value
  | .null => .null
  | .bool value => .bool value
  | .int value => .number (.finite value)
  | .str text => .string (units text)
  | .arr items => .array (valuesOf items)
  | .obj members => .object (membersOf members)

def valuesOf : List Json → List Value
  | [] => []
  | item :: rest => valueOf item :: valuesOf rest

def membersOf : List (String × Json) → List (Units × Value)
  | [] => []
  | (name, value) :: rest => (units name, valueOf value) :: membersOf rest
end

/-- The language over ASCII texts and documents without fractions. -/
def asciiHost : Host where
  toLowerCase text := text.map fun unit => if 65 ≤ unit ∧ unit ≤ 90 then unit + 32 else unit
  numberText
    | .finite value => units (toString value)
    | .infinite false => units "Infinity"
    | .infinite true => units "-Infinity"
  parse bytes := (Json.read bytes).map valueOf

/-- Addresses with the checksum they are given in, and the call of `transfer` in bytes. -/
def samplePackages : Packages where
  getAddress
    | .string text => if fits (among "0" :: among "x" :: hexDigits 40) text then some text else none
    | _ => none
  encodeTransfer destination amount :=
    let digits := (Nat.toDigits 16 amount).map fun c => UInt16.ofNat c.toNat
    units "0xa9059cbb" ++ List.replicate 24 48 ++ asciiHost.toLowerCase (destination.drop 2) ++
      List.replicate (64 - digits.length) 48 ++ digits

def sampleConfig : Config where
  apiBaseUrl := units "https://vouchspec.plyrium.com"
  remedyToken := units "vsr_live_"
  workerId := units "github-actions-remedy"
  accountAddress := units "0x1111111111111111111111111111111111111111"

/-- A claim for one remedy, under a spelling of its key. -/
def sampleClaim (key : String) : Json :=
  .obj [("worker_version", .str remedyVersion), ("lease_seconds", .int 1200), ("job", .obj [
    ("remedy_id", .str "aaaaaaaa-aaaa-4aaa-8aaa-aaaaaaaaaaaa"),
    ("lease_token", .str "22222222-2222-4222-8222-222222222222"), ("idempotency_key", .str key), ("attempt", .int 1),
    ("network", .str "eip155:8453"), ("asset", .str "0x833589fCD6eDb6E08f4c7C32D4f71b54bdA02913"),
    ("amount_atomic", .str "250000"), ("destination", .str "0x2222222222222222222222222222222222222222"),
    ("reason", .str "duplicate_settlement"),
    ("source_transaction", .str "0x3333333333333333333333333333333333333333333333333333333333333333"),
    ("checkpoint_block", .str "123")])]

/-- A server without a payment to reconcile that hands a claim out, and a wallet that sends. -/
def sampleWorld (key : String) : World where
  fetch
    | [] => some { status := 204 }
    | [_] => some { status := 200, body := some [some (Bytes.utf8 (sampleClaim key).text)] }
    | _ => none
  send _ := some (some (.string (units "0x4444444444444444444444444444444444444444444444444444444444444444")))

theorem plain_sampleClaim (key : String) : (sampleClaim key).Plain 2 := by
  have hSmall : ∀ number ≤ 1200, number < 10 ^ Json.maxDigits := fun number hNumber =>
    lt_of_lt_of_le (Nat.lt_of_le_of_lt hNumber (by decide : 1200 < 10 ^ 4)) (Nat.pow_le_pow_right (by decide) (by decide))
  simp [sampleClaim, hSmall]

theorem receives_sampleClaim {key : String} (hShort : (Bytes.utf8 (sampleClaim key).text).length ≤ maxResponseBytes) :
    Receives asciiHost (sampleWorld key) (valueOf (sampleClaim key)) := by
  have hRead : Json.read (Bytes.utf8 (sampleClaim key).text) = some (sampleClaim key) := by
    have hText := @Json.read_text (sampleClaim key) 2 (plain_sampleClaim key) [] rfl
    rwa [List.append_nil] at hText
  have hSome : Bytes.utf8 (sampleClaim key).text ≠ [] := by
    intro hEmpty
    rw [hEmpty] at hRead
    cases hRead
  refine ⟨200, by decide, ?_⟩
  have hReconciled : interpret asciiHost (some { status := 204 }) = .ok ⟨204, .null⟩ := by
    simp [interpret, readBoundedJson, bind, Except.bind, pure, Except.pure]
  have hClaimed : interpret asciiHost (some { status := 200, body := some [some (Bytes.utf8 (sampleClaim key).text)] }) =
      .ok ⟨200, valueOf (sampleClaim key)⟩ := by
    simp [interpret, readBoundedJson, readChunks, require, hShort, hSome, asciiHost, hRead, Except.ofOption, bind,
      Except.bind, pure, Except.pure]
  simp only [claimRemedy, callVouchSpec, perform, raising, reading, Bind.bind, sampleWorld, hReconciled,
    checkReconciliation, if_true, List.nil_append, hClaimed]

/-- The claim is accepted under this spelling of its key. -/
def AcceptsSpelling (key : String) : Prop :=
  ((parseClaim asciiHost samplePackages (valueOf (sampleClaim key))).toOption.map fun job =>
      (job.idempotencyKey, job.remedyId)) = some (units key, units "aaaaaaaa-aaaa-4aaa-8aaa-aaaaaaaaaaaa") ∧
    (Bytes.utf8 (sampleClaim key).text).length ≤ maxResponseBytes

instance (key : String) : Decidable (AcceptsSpelling key) := inferInstanceAs (Decidable (_ ∧ _))

/-- Two claims for one remedy, whose keys differ in case: each is accepted, and they are
paid under different keys. -/
theorem respelled_key_paid_apart : ¬ShareKey asciiHost samplePackages (sampleConfig, sampleConfig)
    (sampleWorld "aaaaaaaa-aaaa-4aaa-8aaa-aaaaaaaaaaaa", sampleWorld "AAAAAAAA-AAAA-4AAA-8AAA-AAAAAAAAAAAA") := by
  have hLower : AcceptsSpelling "aaaaaaaa-aaaa-4aaa-8aaa-aaaaaaaaaaaa" := by decide +kernel
  have hUpper : AcceptsSpelling "AAAAAAAA-AAAA-4AAA-8AAA-AAAAAAAAAAAA" := by decide +kernel
  have hApart : units "aaaaaaaa-aaaa-4aaa-8aaa-aaaaaaaaaaaa" ≠ units "AAAAAAAA-AAAA-4AAA-8AAA-AAAAAAAAAAAA" := by
    decide +kernel
  intro share
  obtain ⟨lower, hLowerJob, hLowerKey⟩ := Option.map_eq_some_iff.mp hLower.1
  obtain ⟨upper, hUpperJob, hUpperKey⟩ := Option.map_eq_some_iff.mp hUpper.1
  have hLowerParsed := Except.toOption_eq_some_iff.mp hLowerJob
  have hUpperParsed := Except.toOption_eq_some_iff.mp hUpperJob
  have hLowerReceived := receives_sampleClaim hLower.2
  have hUpperReceived := receives_sampleClaim hUpper.2
  obtain ⟨one, other, hOne, hOther, hKeys⟩ := share _ _ lower upper hLowerReceived hUpperReceived hLowerParsed
    hUpperParsed (by rw [(Prod.mk.inj hLowerKey).2, (Prod.mk.inj hUpperKey).2])
  rw [sends_of_accepted hLowerReceived hLowerParsed] at hOne
  rw [sends_of_accepted hUpperReceived hUpperParsed] at hOther
  obtain rfl := (List.cons.inj hOne).1
  obtain rfl := (List.cons.inj hOther).1
  have hSame : lower.idempotencyKey = upper.idempotencyKey := hKeys
  rw [(Prod.mk.inj hLowerKey).1, (Prod.mk.inj hUpperKey).1] at hSame
  exact hApart hSame

end Remedy

end VouchSpec
