import VouchSpec.Commerce.Standard
import VouchSpec.Stripe.Course

/-! Reconciling the same snapshot twice. Every emission is recognised when it
is made again, except those that carry the time of the call. -/

namespace VouchSpec

namespace Stripe

/-- The arguments and clock readings of one reconciliation. -/
structure Visit where
  sourceEventId : Option String
  observedAt : Option DateTime
  readings : Readings

namespace Visit

/-- The time that the call takes as the current one. -/
def time (visit : Visit) : DateTime := visit.observedAt.getD ⟨visit.readings.now, true⟩

def reconcile (visit : Visit) (p : Platform) (adapter : Adapter) (snapshot : Snapshot)
    (orderId : String) : Routine Store Raised Reconciled :=
  reconcileOrder p adapter snapshot orderId visit.sourceEventId visit.observedAt visit.readings

end Visit

namespace Snapshot

variable (snapshot : Snapshot)

/-- The types of the events that are emitted with the time of the call: a
dispute, or else both events of a full refund. -/
def clocked (checkoutId : String) (amount : Nat) : List EventType :=
  if ¬snapshot.Succeeded checkoutId then []
  else if snapshot.Disputed checkoutId then [.disputed]
  else if snapshot.Refunded checkoutId amount then [.refundPending, .refunded]
  else []

/-- The same, for a stored order. -/
def clockedTypes (db : Commerce) (orderId : String) : List EventType :=
  match db.order? orderId with
  | none => []
  | some order =>
      match order.providerCheckoutId with
      | none => []
      | some checkoutId => snapshot.clocked checkoutId order.quotedAmountMinor

/-- The emission of one of these types. -/
def clockedEmission (p : Platform) (chargeId : String) (readings : Readings) (type : EventType) :
    Emission where
  type := type
  reference := chargeId
  fee := 0
  occurredAt := p.timestamp (readings.occurred type)

/-- The events of these types that a call with these readings would emit. -/
def clockedEvents (p : Platform) (db : Commerce) (orderId : String) (readings : Readings) :
    List ProviderEvent :=
  ((do
    let order ← db.order? orderId
    let checkoutId ← order.providerCheckoutId
    let paymentId ← snapshot.paymentId? checkoutId
    let chargeId ← snapshot.chargeId? checkoutId
    let terms : Terms := ⟨db.environment, orderId, paymentId, order.quotedAmountMinor⟩
    return (snapshot.clocked checkoutId order.quotedAmountMinor).map fun type =>
      (clockedEmission p chargeId readings type).event p terms) : Option _).getD []

end Snapshot

section
variable {p : Platform} {adapter : Adapter} {snapshot : Snapshot} {orderId : String}

theorem Settlement.Reads.clocked {settlement : Settlement} {checkoutId : String} {amount : Nat}
    (reads : settlement.Reads snapshot checkoutId amount) :
    settlement.clocked amount = snapshot.clocked checkoutId amount := by
  unfold Settlement.clocked Snapshot.clocked
  simp only [reads.succeeded, reads.disputed, reads.refunded, not_true_eq_false, if_false]

/-- Emissions of the same settlement at two times differ only in the clocked ones. -/
theorem Settlement.emissions_congr (settlement : Settlement) {amount : Int} {availableAt : String}
    {first second : Readings}
    (hSame : ∀ type ∈ settlement.clocked amount,
      first.occurred type / 1000000 = second.occurred type / 1000000) :
    settlement.emissions p amount availableAt first = settlement.emissions p amount availableAt second := by
  unfold Settlement.emissions Settlement.following
  congr 2
  apply List.map_congr_left
  intro type hType
  rw [p.timestamp_inj.mpr (hSame type hType)]

theorem Settlement.clockedEmission_mem (settlement : Settlement) {amount : Int} {availableAt : String}
    (readings : Readings) {type : EventType} (hType : type ∈ settlement.clocked amount) :
    Snapshot.clockedEmission p settlement.chargeId readings type ∈
      settlement.emissions p amount availableAt readings := by
  apply List.mem_cons_of_mem
  apply List.mem_append_right
  exact List.mem_map_of_mem hType

theorem Settlement.emissions_fee {settlement : Settlement} (hFee : 0 ≤ settlement.fee) {amount : Int}
    {availableAt : String} {readings : Readings} :
    ∀ emission ∈ settlement.emissions p amount availableAt readings, 0 ≤ emission.fee := by
  intro emission hEmission
  simp only [Settlement.emissions, Settlement.following, List.mem_cons, List.mem_append,
    List.mem_map] at hEmission
  rcases hEmission with rfl | hAvailable | ⟨type, -, rfl⟩
  · exact hFee
  · split at hAvailable
    · rw [List.mem_singleton.mp hAvailable]
    · cases hAvailable
  · exact le_refl 0

/-- Funds that were available stay available. -/
theorem Settlement.availableTime_later {settlement : Settlement} {first second : Int}
    {availableAt : String} (hLater : first ≤ second)
    (hAvailable : settlement.availableTime p first = .ok availableAt) :
    settlement.availableTime p second = .ok availableAt := by
  unfold Settlement.availableTime at hAvailable ⊢
  simp only [Except.bind_eq_ok_iff] at hAvailable ⊢
  obtain ⟨time, hTime, hRest⟩ := hAvailable
  refine ⟨time, hTime, ?_⟩
  split at hRest
  · simp only [Except.bind_eq_ok_iff, require_eq_ok, Except.pure_eq_ok_iff] at hRest ⊢
    obtain ⟨instant, hInstant, _, hPast, rfl⟩ := hRest
    rw [if_pos ‹_›]
    simp only [Except.bind_eq_ok_iff, require_eq_ok, Except.pure_eq_ok_iff]
    exact ⟨instant, hInstant, (), hPast.trans hLater, trivial⟩
  · rw [if_neg ‹_›]
    exact hRest

/-- The order of an opened session in the store. -/
theorem order_of_opened {db : Commerce} {start : Opened}
    (hOpened : openSession p adapter snapshot db orderId = .ok start) :
    ∃ order, db.order? orderId = some order ∧ start.order.Shows order ∧
      order.providerCheckoutId = some start.checkoutId := by
  obtain ⟨_, hOrder, -, hCheckout, -⟩ := openSession_eq_ok.mp hOpened
  rw [Commerce.getOrder_eq_orderView] at hOrder
  obtain ⟨order, hStored, shows⟩ := Commerce.orderView_shows hOrder
  exact ⟨order, hStored, shows, shows.providerCheckoutId.symm.trans hCheckout⟩

/-- A session without a payment has no clocked events. -/
theorem clockedTypes_absent {db : Commerce} {start : Opened}
    (hOpened : openSession p adapter snapshot db orderId = .ok start)
    (hAbsent : member start.session "payment_intent" = .null) :
    snapshot.clockedTypes db orderId = [] := by
  obtain ⟨order, hStored, -, hCheckout⟩ := order_of_opened hOpened
  obtain ⟨_, -, -, -, -, hSession, -⟩ := openSession_eq_ok.mp hOpened
  have hFound := (retrieve_eq_ok.mp hSession).1
  have hNone : snapshot.paymentId? start.checkoutId = none := by
    simp [Snapshot.paymentId?, hFound, hAbsent, referenceId, Json.str?, Except.ofOption, bind,
      Except.bind, Except.toOption]
  simp [Snapshot.clockedTypes, hStored, hCheckout, Snapshot.clocked, Snapshot.Succeeded,
    Snapshot.payment?, hNone]

section
variable {before after : Commerce} {start : Opened} {paymentId : String} {view : OrderView}
  {readings : Readings}

/-- The order whose payment was reached, as it was before. -/
theorem Reached.order (reached : Reached p adapter snapshot orderId readings before after start
    paymentId view) (wellFormed : Commerce.WellFormed p before) :
    ∃ order, before.order? orderId = some order ∧
      order.providerCheckoutId = some start.checkoutId ∧
      order.quotedAmountMinor = view.quotedAmountMinor := by
  obtain ⟨order, hOrder, -, hCheckout⟩ := order_of_opened reached.opened
  obtain ⟨-, now, hNow, shows, -⟩ := Commerce.bindProviderPayment_bound reached.bound
  obtain ⟨later, hLater, -, keeps⟩ := (reached.continues wellFormed).2.order wellFormed hOrder
  obtain rfl : now = later := Option.some.inj (hNow.symm.trans hLater)
  exact ⟨order, hOrder, hCheckout, by rw [shows.quotedAmountMinor, keeps.quotedAmountMinor]⟩

theorem Reached.clockedTypes (reached : Reached p adapter snapshot orderId readings before after start
    paymentId view) (wellFormed : Commerce.WellFormed p before) :
    snapshot.clockedTypes before orderId = snapshot.clocked start.checkoutId view.quotedAmountMinor := by
  obtain ⟨order, hOrder, hCheckout, hAmount⟩ := reached.order wellFormed
  simp [Snapshot.clockedTypes, hOrder, hCheckout, hAmount]

/-- The clocked emissions of a settlement ingest the clocked events. -/
theorem Reached.clockedEvents (reached : Reached p adapter snapshot orderId readings before after start
    paymentId view) (wellFormed : Commerce.WellFormed p before) {settlement : Settlement}
    (reads : settlement.Reads snapshot start.checkoutId view.quotedAmountMinor) (readings' : Readings)
    {type : EventType} (hType : type ∈ snapshot.clockedTypes before orderId) :
    (Snapshot.clockedEmission p settlement.chargeId readings' type).event p
        (termsOf after orderId paymentId view) ∈
      snapshot.clockedEvents p before orderId readings' := by
  obtain ⟨order, hOrder, hCheckout, hAmount⟩ := reached.order wellFormed
  rw [reached.clockedTypes wellFormed] at hType
  simp only [Snapshot.clockedEvents, hOrder, hCheckout, reached.paymentId?, reads.chargeId, hAmount,
    Option.bind_eq_bind, Option.bind_some, Option.pure_def, Option.getD_some, List.mem_map]
  refine ⟨type, hType, ?_⟩
  rw [termsOf, (reached.continues wellFormed).2.environment]

end

/-- The call returns with this state and leaves the ledger as it is. -/
def Repeats (p : Platform) (adapter : Adapter) (snapshot : Snapshot) (orderId : String) (visit : Visit)
    (store : Store) (state : String) : Prop :=
  ∃ again after, Course p adapter snapshot orderId visit.sourceEventId visit.time.instant
      visit.readings store again after ∧
    again.state = state ∧ after.commerce = store.commerce

/-- A session that named no payment still names none. -/
theorem repeats_absent {visit : Visit} {store later : Store} {start : Opened}
    (wellFormed : Commerce.WellFormed p store.commerce)
    (hOpened : openSession p adapter snapshot store.commerce orderId = .ok start)
    (hAbsent : member start.session "payment_intent" = .null)
    (continues : store.commerce.Continues later.commerce) :
    Repeats p adapter snapshot orderId visit later (absentState start.session) := by
  obtain ⟨start', hOpened', -, hSession, -⟩ := openSession_again wellFormed continues hOpened
  exact ⟨⟨absentState start'.session, start'.order⟩, later,
    .absent hOpened' (by rw [hSession]; exact hAbsent), by rw [hSession], rfl⟩

section
variable {before after : Commerce} {start : Opened} {paymentId : String} {view : OrderView}
  {readings : Readings} {visit : Visit} {later : Store}

theorem repeats_pending (reached : Reached p adapter snapshot orderId readings before after start
    paymentId view) (wellFormed : Commerce.WellFormed p before)
    (hExamined : examinePayment p adapter snapshot after.environment orderId view paymentId =
      .ok .unpaid)
    (continues : after.Continues later.commerce) :
    Repeats p adapter snapshot orderId visit later "pending_payment" := by
  obtain ⟨start', view', hReached, -, -, -, same, -⟩ :=
    reached.again wellFormed continues visit.readings
  rw [← examinePayment_congr same, ← continues.environment] at hExamined
  exact ⟨_, _, .pending hReached hExamined, rfl, rfl⟩

theorem repeats_failed (reached : Reached p adapter snapshot orderId readings before after start
    paymentId view) (wellFormed : Commerce.WellFormed p before) {createdAt : String}
    (hExamined : examinePayment p adapter snapshot after.environment orderId view paymentId =
      .ok (.failed createdAt))
    (continues : after.Continues later.commerce)
    (bound : (termsOf after orderId paymentId view).Bound p later.commerce)
    (taken : (failure paymentId createdAt).Taken p (termsOf after orderId paymentId view)
      later.commerce) :
    Repeats p adapter snapshot orderId visit later "failed" := by
  obtain ⟨start', view', hReached, -, -, -, same, shown⟩ :=
    reached.again wellFormed continues visit.readings
  rw [← examinePayment_congr same, ← continues.environment] at hExamined
  obtain ⟨last, hEmitted, -⟩ := emit_replay visit.readings bound (bound.viewed_of_shown shown)
    (le_refl 0) taken
  exact ⟨_, _, .failed hReached hExamined hEmitted, rfl, rfl⟩

/-- The events of a settlement that were taken in are recognised when they are
emitted again, if the clocked ones carry the same second. -/
theorem repeats_settled (reached : Reached p adapter snapshot orderId readings before after start
    paymentId view) (wellFormed : Commerce.WellFormed p before) {settlement : Settlement}
    (hExamined : examinePayment p adapter snapshot after.environment orderId view paymentId =
      .ok (.settled settlement))
    (hFee : 0 ≤ settlement.fee) {currentTime : Int} {availableAt checkoutId : String}
    (hAvailable : settlement.availableTime p currentTime = .ok availableAt)
    (hLater : currentTime ≤ visit.time.instant)
    (hId : member start.session "id" = .str checkoutId) (continues : after.Continues later.commerce)
    (bound : (termsOf after orderId paymentId view).Bound p later.commerce)
    (taken : ∀ emission ∈ settlement.emissions p view.quotedAmountMinor availableAt readings,
      emission.Taken p (termsOf after orderId paymentId view) later.commerce)
    (hSame : ∀ type ∈ settlement.clocked view.quotedAmountMinor,
      readings.occurred type / 1000000 = visit.readings.occurred type / 1000000) :
    Repeats p adapter snapshot orderId visit later (settlement.state view.quotedAmountMinor) := by
  obtain ⟨start', view', hReached, -, hSession, -, same, shown⟩ :=
    reached.again wellFormed continues visit.readings
  rw [← examinePayment_congr same, ← continues.environment] at hExamined
  rw [settlement.emissions_congr hSame] at taken
  obtain ⟨last, hEmitted, -⟩ := emitAll_replay visit.readings bound shown
    (settlement.emissions_fee hFee) taken
  rw [← same.quotedAmountMinor] at hEmitted ⊢
  refine ⟨⟨settlement.state view'.quotedAmountMinor, last⟩, later.record _,
    .settled hReached hExamined (settle_returns.mpr ⟨availableAt, last, later, checkoutId,
      settlement.availableTime_later hLater hAvailable, hEmitted, ?_, rfl, rfl⟩), rfl, rfl⟩
  rw [hSession]
  exact hId

/-- If the settlement is repeated, the clocked events carry the same second. -/
theorem same_second_of_repeats (reached : Reached p adapter snapshot orderId readings before after start
    paymentId view) (wellFormed : Commerce.WellFormed p before) {settlement : Settlement}
    (hExamined : examinePayment p adapter snapshot after.environment orderId view paymentId =
      .ok (.settled settlement))
    (reads : settlement.Reads snapshot start.checkoutId view.quotedAmountMinor)
    {availableAt : String} (continues : after.Continues later.commerce)
    (bound : (termsOf after orderId paymentId view).Bound p later.commerce)
    (taken : ∀ emission ∈ settlement.emissions p view.quotedAmountMinor availableAt readings,
      emission.Taken p (termsOf after orderId paymentId view) later.commerce)
    (hDistinct : ∀ first ∈ snapshot.clockedEvents p before orderId readings,
      ∀ second ∈ snapshot.clockedEvents p before orderId visit.readings,
      (p.sha256 first.payload).hexdigest = (p.sha256 second.payload).hexdigest → first = second)
    {state : String} (repeats : Repeats p adapter snapshot orderId visit later state)
    {type : EventType} (hType : type ∈ snapshot.clockedTypes before orderId) :
    readings.occurred type / 1000000 = visit.readings.occurred type / 1000000 := by
  obtain ⟨start', view', hReached, -, -, -, same, shown⟩ :=
    reached.again wellFormed continues visit.readings
  have hExaminedNow := hExamined
  rw [← examinePayment_congr same, ← continues.environment] at hExaminedNow
  have hClocked := hType
  rw [reached.clockedTypes wellFormed, ← reads.clocked] at hClocked
  obtain ⟨again, last, course, -, hUnchanged⟩ := repeats
  -- The second call takes the course of the first, since nothing it reads has changed.
  obtain ⟨availableAt', later', middle, checkoutId, -, hEmitted, -, -, hLast⟩ :
      ∃ availableAt' later' middle checkoutId,
        settlement.availableTime p visit.time.instant = .ok availableAt' ∧
        (emitAll p visit.readings view' (settlement.emissions p view'.quotedAmountMinor availableAt'
          visit.readings)).Returns later later' middle ∧
        member start'.session "id" = .str checkoutId ∧
        again = ⟨settlement.state view'.quotedAmountMinor, later'⟩ ∧
        last = middle.record (settlement.row p start'.order.orderId checkoutId paymentId
          visit.sourceEventId view'.quotedAmountMinor visit.time.instant) := by
    cases course with
    | absent hOpened hAbsent =>
        obtain rfl := Except.ok.inj (hOpened.symm.trans hReached.opened)
        exact absurd hAbsent hReached.present
    | pending other hOther =>
        obtain ⟨rfl, rfl, rfl, rfl⟩ := hReached.unique other
        rw [hExaminedNow] at hOther
        cases hOther
    | failed other hOther =>
        obtain ⟨rfl, rfl, rfl, rfl⟩ := hReached.unique other
        rw [hExaminedNow] at hOther
        cases hOther
    | settled other hOther hSettled =>
        obtain ⟨rfl, rfl, rfl, rfl⟩ := hReached.unique other
        rw [hExaminedNow] at hOther
        cases hOther
        exact settle_returns.mp hSettled
  obtain ⟨progress, takenAgain⟩ := emitAll_taken bound shown
    (settlement.emissions_fee reads.fee) hEmitted
  have hFirst := taken _ (settlement.clockedEmission_mem readings hClocked)
  rw [← same.quotedAmountMinor] at hClocked
  have hSecond := takenAgain _ (settlement.clockedEmission_mem visit.readings hClocked)
  have hDigest := (hFirst.2.continues progress.continues).digest_eq hSecond.2 rfl
  have hEvents := hDistinct _ (reached.clockedEvents wellFormed reads readings hType) _
    (reached.clockedEvents wellFormed reads visit.readings hType) hDigest
  exact p.timestamp_inj.mp (congrArg ProviderEvent.occurredAt hEvents)

end

theorem Visit.reconcile_returns {visit : Visit} {store next : Store} {result : Reconciled} :
    (visit.reconcile p adapter snapshot orderId).Returns store result next ↔
      Pattern.orderId orderId = true ∧ visit.time.aware = true ∧
        Course p adapter snapshot orderId visit.sourceEventId visit.time.instant visit.readings store
          result next :=
  reconcileOrder_returns

end

/-- Once a reconciliation has returned, one with the same snapshot at a later
time returns with the same state and leaves the ledger as it is exactly if the
events that carry the time of the call get the same second in both calls. -/
theorem reconciliation_idempotent (p : Platform) (adapter : Adapter) (snapshot : Snapshot)
    (orderId : String) (first second : Visit) {before middle later : Store} {result : Reconciled}
    (reachable : Commerce.Reachable p before.commerce)
    (hFirst : (first.reconcile p adapter snapshot orderId).Returns before result middle)
    (hBetween : Runs.Reaches (Commerce.step p) middle.commerce later.commerce)
    (hAware : second.time.aware = true) (hLater : first.time.instant ≤ second.time.instant)
    (hDistinct : ∀ event ∈ snapshot.clockedEvents p before.commerce orderId first.readings,
      ∀ other ∈ snapshot.clockedEvents p before.commerce orderId second.readings,
      (p.sha256 event.payload).hexdigest = (p.sha256 other.payload).hexdigest → event = other) :
    (∃ again after, (second.reconcile p adapter snapshot orderId).Returns later again after ∧
        again.state = result.state ∧ after.commerce = later.commerce) ↔
      ∀ type ∈ snapshot.clockedTypes before.commerce orderId,
        first.readings.occurred type / 1000000 = second.readings.occurred type / 1000000 := by
  have wellFormed := reachable.wellFormed
  obtain ⟨hPattern, -, course⟩ := Visit.reconcile_returns.mp hFirst
  have hRepeats : (∃ again after, (second.reconcile p adapter snapshot orderId).Returns later again
      after ∧ again.state = result.state ∧ after.commerce = later.commerce) ↔
      Repeats p adapter snapshot orderId second later result.state := by
    simp only [Visit.reconcile_returns, hPattern, hAware, true_and]
    exact Iff.rfl
  rw [hRepeats]
  cases course with
  | @absent start hOpened hAbsent =>
      have continues := Commerce.continues_of_reaches wellFormed hBetween
      rw [clockedTypes_absent hOpened hAbsent]
      exact iff_of_true (repeats_absent wellFormed hOpened hAbsent continues) (by simp)
  | @pending start paymentId view after reached hExamined =>
      have continues := Commerce.continues_of_reaches (reached.continues wellFormed).1 hBetween
      have hUnpaid := examinePayment_reads reached.paymentId? hExamined
      rw [reached.clockedTypes wellFormed, Snapshot.clocked, if_pos hUnpaid]
      exact iff_of_true (repeats_pending reached wellFormed hExamined continues) (by simp)
  | @failed start paymentId createdAt view last after next reached hExamined hEmitted =>
      obtain ⟨bound, shown⟩ := reached.terms wellFormed
      obtain ⟨progress, taken⟩ := emit_taken bound (bound.viewed_of_shown shown) (le_refl 0) hEmitted
      have between := Commerce.continues_of_reaches progress.bound.wellFormed hBetween
      have hUnpaid := (examinePayment_reads reached.paymentId? hExamined).2
      rw [reached.clockedTypes wellFormed, Snapshot.clocked, if_pos hUnpaid]
      refine iff_of_true (repeats_failed reached wellFormed hExamined
        (progress.continues.trans between) ?_ (taken.continues between)) (by simp)
      exact progress.bound.continues (hBetween.invariant (Commerce.WellFormed p)
        (fun _ call h => Commerce.step_wellFormed h call) progress.bound.wellFormed) between
  | @settled start paymentId view after next settlement result reached hExamined hSettled =>
      obtain ⟨bound, shown⟩ := reached.terms wellFormed
      have reads := examinePayment_reads reached.paymentId? hExamined
      obtain ⟨availableAt, last, done, checkoutId, hAvailable, hEmitted, hId, rfl, rfl⟩ :=
        settle_returns.mp hSettled
      obtain ⟨progress, taken⟩ := emitAll_taken bound shown
        (settlement.emissions_fee reads.fee) hEmitted
      have between := Commerce.continues_of_reaches progress.bound.wellFormed hBetween
      have hBound := progress.bound.continues (hBetween.invariant (Commerce.WellFormed p)
        (fun _ call h => Commerce.step_wellFormed h call) progress.bound.wellFormed) between
      have hTaken := fun emission hEmission => (taken emission hEmission).continues between
      constructor
      · intro repeats type hType
        exact same_second_of_repeats reached wellFormed hExamined reads
          (progress.continues.trans between) hBound hTaken hDistinct repeats hType
      · intro hSame
        rw [reached.clockedTypes wellFormed, ← reads.clocked] at hSame
        exact repeats_settled reached wellFormed hExamined reads.fee hAvailable hLater hId
          (progress.continues.trans between) hBound hTaken hSame

namespace Sample

def adapter : Adapter := ⟨"acct_00000001"⟩

def checkoutId : String := "cs_test_00000001"

/-- An order whose checkout is attached. -/
def checkout : List Commerce.Call :=
  VouchSpec.Sample.opening "stripe" ++
    [.attachCheckout VouchSpec.Sample.orderId checkoutId "2026-01-01T00:00:00Z" none]

def attached : Store :=
  ⟨Runs.run (Commerce.step .standard) (Commerce.empty .sandbox) checkout, .empty⟩

theorem attached_reachable : Commerce.Reachable .standard attached.commerce := by
  dsimp only [attached]
  exact ⟨.sandbox, checkout, rfl⟩

def metadata : Json :=
  .obj [("vouchspec_order_id", .str VouchSpec.Sample.orderId),
    ("vouchspec_quote_id", .str VouchSpec.Sample.quoteId), ("vouchspec_account_id", .str "acct_00000001")]

def session : Json :=
  .obj [("id", .str checkoutId), ("object", .str "checkout.session"), ("livemode", .bool false),
    ("mode", .str "payment"), ("currency", .str "usd"), ("amount_total", .int 4900),
    ("client_reference_id", .str VouchSpec.Sample.orderId), ("metadata", metadata),
    ("status", .str "complete"), ("expires_at", .int 1767227400),
    ("payment_intent", .str "pi_00000001")]

def payment (status : String) : Json :=
  .obj [("id", .str "pi_00000001"), ("object", .str "payment_intent"), ("livemode", .bool false),
    ("currency", .str "usd"), ("amount", .int 4900), ("amount_received", .int 4900),
    ("created", .int 1767225660), ("metadata", metadata), ("status", .str status),
    ("latest_charge", .str "ch_00000001")]

def charge (refunded : Int) (disputed : Bool) : Json :=
  .obj [("id", .str "ch_00000001"), ("object", .str "charge"), ("livemode", .bool false),
    ("payment_intent", .str "pi_00000001"), ("currency", .str "usd"), ("amount", .int 4900),
    ("amount_captured", .int 4900), ("amount_refunded", .int refunded), ("paid", .bool true),
    ("captured", .bool true), ("created", .int 1767225660), ("disputed", .bool disputed),
    ("balance_transaction", .str "txn_00000001")]

def balance : Json :=
  .obj [("id", .str "txn_00000001"), ("object", .str "balance_transaction"),
    ("source", .str "ch_00000001"), ("currency", .str "usd"), ("amount", .int 4900), ("fee", .int 172),
    ("net", .int 4728), ("status", .str "pending"), ("available_on", .int 1767225660)]

def snapshot (status : String) (refunded : Int) (disputed : Bool) : Snapshot where
  checkout _ := some session
  payment _ := some (payment status)
  charge _ := some (charge refunded disputed)
  balance _ := some balance

/-- A call some minutes into the new year, all of whose readings are that time. -/
def visit (after : Int) : Visit where
  sourceEventId := none
  observedAt := none
  readings := ⟨VouchSpec.Sample.newYear + minutes after, VouchSpec.Sample.newYear + minutes after,
    fun _ => VouchSpec.Sample.newYear + minutes after, fun _ => VouchSpec.Sample.newYear + minutes after⟩

end Sample

/-- A dispute, reconciled at two times, is reconciled once: the second call finds
its event identifier reused for another content. -/
theorem dispute_reconciled_once :
    Commerce.Reachable .standard Sample.attached.commerce ∧ ∃ result middle,
      ((Sample.visit 3).reconcile .standard Sample.adapter (Sample.snapshot "succeeded" 0 true)
        VouchSpec.Sample.orderId).Returns Sample.attached result middle ∧
      result.state = "disputed" ∧
      ((Sample.visit 4).reconcile .standard Sample.adapter (Sample.snapshot "succeeded" 0 true)
        VouchSpec.Sample.orderId middle).1 =
          .error (rejected "provider event identifier was reused" "provider_event_conflict") := by
  refine ⟨Sample.attached_reachable, ?_⟩
  have hRuns : (match (Sample.visit 3).reconcile .standard Sample.adapter
        (Sample.snapshot "succeeded" 0 true) VouchSpec.Sample.orderId Sample.attached with
      | (.ok result, middle) => decide (result.state = "disputed" ∧
          ((Sample.visit 4).reconcile .standard Sample.adapter (Sample.snapshot "succeeded" 0 true)
            VouchSpec.Sample.orderId middle).1 =
              .error (rejected "provider event identifier was reused" "provider_event_conflict"))
      | (.error _, _) => false) = true := by decide +kernel
  split at hRuns
  · next result middle hRun => exact ⟨result, middle, hRun, of_decide_eq_true hRuns⟩
  · cases hRuns

/-- A payment that is neither refunded nor disputed is reconciled alike at any
later time; here a minute later. -/
theorem reconciliation_idempotent_captured :
    ∃ result middle,
      ((Sample.visit 3).reconcile .standard Sample.adapter (Sample.snapshot "succeeded" 0 false)
        VouchSpec.Sample.orderId).Returns Sample.attached result middle ∧
      ∃ again after, ((Sample.visit 4).reconcile .standard Sample.adapter
        (Sample.snapshot "succeeded" 0 false) VouchSpec.Sample.orderId).Returns middle again after ∧
        again.state = result.state ∧ after.commerce = middle.commerce := by
  have hRun : ((Sample.visit 3).reconcile .standard Sample.adapter (Sample.snapshot "succeeded" 0 false)
        VouchSpec.Sample.orderId Sample.attached).1.toBool = true ∧
      (Sample.snapshot "succeeded" 0 false).clockedTypes Sample.attached.commerce
        VouchSpec.Sample.orderId = [] ∧
      (Sample.snapshot "succeeded" 0 false).clockedEvents .standard Sample.attached.commerce
        VouchSpec.Sample.orderId (Sample.visit 3).readings = [] := by decide +kernel
  obtain ⟨hReturns, hTypes, hEvents⟩ := hRun
  obtain ⟨result, middle, hFirst⟩ := Routine.returns_of_toBool hReturns
  refine ⟨result, middle, hFirst, (reconciliation_idempotent .standard Sample.adapter _ _ (Sample.visit 3)
    (Sample.visit 4) Sample.attached_reachable hFirst (.refl _) rfl (by decide) ?_).mpr ?_⟩
  · rw [hEvents]
    intro event hEvent
    cases hEvent
  · rw [hTypes]
    intro type hType
    cases hType

end Stripe

end VouchSpec
