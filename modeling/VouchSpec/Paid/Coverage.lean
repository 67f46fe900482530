import VouchSpec.Paid.Desk

/-! Publications one after another. Where no call of `publish` begins while another is
under way, each publication lists every receipt that was listed before. -/

namespace VouchSpec

namespace Paid

open Signing Lifecycle Program

/-- A whole call of `publish`, with the calls of the commerce store between its two
steps, or a call of the commerce store. -/
inductive Visit (Caller : Type) where
  | publish (caller : Caller) (between : List Commerce.Call)
  | commerce (call : Commerce.Call)

def Visit.steps {Caller : Type} : Visit Caller → List (Step Caller)
  | .publish caller between => [.publish caller] ++ between.map .commerce ++ [.publish caller]
  | .commerce call => [.commerce call]

/-- No publication leaves out a receipt, and the statuses are what the latest one says. -/
structure Covered (store : Store) : Prop where
  grows : ∀ earlier ∈ store.publications.rows, ∀ later ∈ store.publications.rows, earlier.sequence ≤ later.sequence →
    ∀ receiptId state, earlier.Gives receiptId state → ∃ other, later.Gives receiptId other
  latest : ∀ row, store.latest? = some row → ∀ receiptId state, row.Gives receiptId state ↔
    ∃ status, rowOf store.statuses receiptId = some status ∧ status.state = state

def Store.commerceRun (p : Platform) (store : Store) (calls : List Commerce.Call) : Store :=
  Runs.run (Store.commerceStep p) store calls

section
variable {Key : Type} {t : Toolkit} {scheme : Ed25519 Key} {store after : Store} {submission : Submission}
  {orders : List Delivered}

theorem commerceRun_tables (p : Platform) (store : Store) (calls : List Commerce.Call) :
    (store.commerceRun p calls).publications = store.publications ∧
      (store.commerceRun p calls).statuses = store.statuses := by
  induction calls generalizing store with
  | nil => exact ⟨rfl, rfl⟩
  | cons call rest ih => exact ih (store.commerceStep p call)

theorem Sound.commerceRun (sound : Sound t scheme store) (calls : List Commerce.Call) :
    Sound t scheme (store.commerceRun t.toPlatform calls) :=
  Runs.run_invariant (Sound t scheme) (fun _ call sound => (sound.commerceStep call).1) sound calls

/-- Where no publication leaves out a receipt, the statuses are what the latest one says. -/
theorem Chronicle.covered (chronicle : Chronicle t scheme store)
    (hGrows : ∀ earlier ∈ store.publications.rows, ∀ later ∈ store.publications.rows,
      earlier.sequence ≤ later.sequence → ∀ receiptId state, earlier.Gives receiptId state →
        ∃ other, later.Gives receiptId other) : Covered store := by
  refine ⟨hGrows, ?_⟩
  intro row hLatest receiptId state
  have hRow : row ∈ store.publications.rows := List.argmax_mem hLatest
  have hStated : ∀ status, rowOf store.statuses receiptId = some status → row.Gives receiptId status.state := by
    intro status hStatus
    obtain ⟨⟨⟨source, hSource, hSequence, hGives⟩, hLast⟩, -⟩ := chronicle.statuses receiptId status hStatus
    have hBelow : source.sequence ≤ row.sequence := List.le_of_mem_argmax hSource hLatest
    rcases hBelow.lt_or_eq with hLess | hSame
    · obtain ⟨other, hOther⟩ := hGrows source hSource row hRow hBelow receiptId _ hGives
      exact absurd hOther (hLast row hRow (hSequence ▸ hLess) other)
    · obtain rfl := chronicle.sequence_injective hSource hRow hSame
      exact hGives
  constructor
  · intro gives
    obtain ⟨status, hStatus⟩ := chronicle.listed row hRow receiptId state gives
    exact ⟨status, hStatus, (hStated status hStatus).unique (chronicle.authentic row hRow).distinct gives⟩
  · rintro ⟨status, hStatus, rfl⟩
    exact hStated status hStatus

/-- A feed that covers the delivered orders lists every receipt that is listed. -/
theorem covers_listed (chronicle : Chronicle t scheme store) (hOrders : coveredOrders submission store.commerce = .ok orders)
    {row : Publication} (hRow : row ∈ store.publications.rows) {receiptId : String} {state : ReceiptStatus × Option String}
    (gives : row.Gives receiptId state) : ∃ other, (publicationOf t submission).Gives receiptId other := by
  obtain ⟨status, hStatus⟩ := chronicle.listed row hRow receiptId state gives
  have hIssued := (chronicle.statuses receiptId status hStatus).2
  simp only [coveredOrders, Except.bind_eq_ok_iff, require_eq_ok, exists_const, Except.pure_eq_ok_iff] at hOrders
  obtain ⟨found, hFound, -, _, -, ⟨-, hExact⟩, rfl⟩ := hOrders
  obtain ⟨item, hItem, rfl⟩ := List.mem_map.mp (mem_deliveredOrders hFound hIssued)
  obtain ⟨record, hRecord, hSame⟩ := List.mem_map.mp (hExact item hItem)
  exact ⟨record.state, record, hRecord, hSame, rfl⟩

/-- A publication of the orders that were delivered when the last one was the latest. -/
theorem Covered.published (covered : Covered store) (chronicle : Chronicle t scheme store)
    (hOrders : coveredOrders submission store.commerce = .ok orders)
    (hRows : after.publications.rows = store.publications.rows ++ [publicationOf t submission])
    (hSequence : (publicationOf t submission).sequence = store.publications.rows.length + 1)
    (hAfter : Chronicle t scheme after) : Covered after := by
  refine hAfter.covered ?_
  have hCases : ∀ row ∈ after.publications.rows, row ∈ store.publications.rows ∨ row = publicationOf t submission := by
    intro row hRow
    rw [hRows, List.mem_append, List.mem_singleton] at hRow
    exact hRow
  intro earlier hEarlier later hLater hOrder receiptId state gives
  rcases hCases later hLater with hOld | rfl
  · rcases hCases earlier hEarlier with hFirst | rfl
    · exact covered.grows earlier hFirst later hOld hOrder receiptId state gives
    · have hBelow := chronicle.sequence_le hOld
      omega
  · rcases hCases earlier hEarlier with hFirst | rfl
    · exact covers_listed chronicle hOrders hFirst gives
    · exact ⟨state, gives⟩

/-- The tables are those of the store that is covered. -/
theorem Covered.withCommerce (covered : Covered store) (hPublications : after.publications = store.publications)
    (hStatuses : after.statuses = store.statuses) : Covered after := by
  refine ⟨?_, ?_⟩
  · rw [hPublications]
    exact covered.grows
  · rw [Store.latest?, hPublications, hStatuses]
    exact covered.latest

end

namespace Desk

variable {Caller Key : Type} [DecidableEq Caller] {t : Toolkit} {scheme : Ed25519 Key} {requests : Caller → Request}
  {desk : Desk Caller}

/-- A caller has not begun, or is done. -/
def Idle (t : Toolkit) (scheme : Ed25519 Key) (requests : Caller → Request) (desk : Desk Caller) : Prop :=
  ∀ caller, desk.threads caller = publish t scheme (requests caller).envelopeBytes (requests caller).trustedRootJwk
    (requests caller).publishedAt ∨ ∃ outcome, desk.threads caller = .ended outcome

theorem run_commerce (p : Platform) (desk : Desk Caller) (calls : List Commerce.Call) :
    desk.run p (calls.map .commerce) = { desk with state := desk.state.commerceRun p calls } := by
  induction calls generalizing desk with
  | nil => rfl
  | cons call rest ih => exact ih { desk with state := desk.state.commerceStep p call }

theorem run_publish (p : Platform) (desk : Desk Caller) (caller : Caller) (between : List Commerce.Call) :
    desk.run p (Visit.publish caller between).steps =
      Pool.advance { desk.advance caller with state := (desk.advance caller).state.commerceRun p between } caller := by
  have hRun : desk.run p (Visit.publish caller between).steps =
      Pool.advance (Desk.run p (desk.advance caller) (between.map .commerce)) caller := by
    unfold Visit.steps run
    rw [Runs.run_append, Runs.run_append]
    rfl
  rw [hRun, run_commerce]

/-- What a whole call comes to. -/
inductive Visited (t : Toolkit) (scheme : Ed25519 Key) (start middle : Store) (request : Request) : Store → Prop
  | unchanged : Visited t scheme start middle request middle
  | written {submission : Submission} {orders : List Delivered} {after : Store} {view : PublicationView}
      (hSubmit : submit t scheme request.envelopeBytes request.trustedRootJwk request.publishedAt = .ok submission)
      (hOrders : coveredOrders submission start.commerce = .ok orders)
      (hImport : importFeed t submission orders middle = .ok (after, view)) : Visited t scheme start middle request after

theorem advance_ended {caller : Caller} {outcome : Except Raised PublicationView}
    (hEnded : desk.threads caller = .ended outcome) : desk.advance caller = desk := by
  unfold Pool.advance
  rw [hEnded]

theorem advance_atomic {caller : Caller} {effect : Store → Store} {next : Store → Program Store Raised PublicationView}
    (hAtomic : desk.threads caller = .atomic effect next) :
    desk.advance caller = { state := effect desk.state
                            threads := Function.update desk.threads caller (next desk.state) } := by
  unfold Pool.advance
  rw [hAtomic]

omit [DecidableEq Caller] in
/-- A call reads the orders and goes on, or it has ended. -/
theorem publish_cases (request : Request) :
    (∃ error, publish t scheme request.envelopeBytes request.trustedRootJwk request.publishedAt = .ended (.error error)) ∨
      ∃ submission, submit t scheme request.envelopeBytes request.trustedRootJwk request.publishedAt = .ok submission ∧
        publish t scheme request.envelopeBytes request.trustedRootJwk request.publishedAt =
          .atomic id fun store => (Program.ended (coveredOrders submission store.commerce)).andThen
            fun orders => .call (importFeed t submission orders) := by
  cases hSubmit : submit t scheme request.envelopeBytes request.trustedRootJwk request.publishedAt with
  | error error =>
      left
      refine ⟨error, ?_⟩
      rw [publish, hSubmit]
      rfl
  | ok submission =>
      right
      refine ⟨submission, rfl, ?_⟩
      rw [publish, hSubmit]
      rfl

theorem Idle.update (idle : Idle t scheme requests desk) (caller : Caller) {next : Program Store Raised PublicationView}
    (hEnded : ∃ outcome, next = .ended outcome) (state : Store) :
    Idle t scheme requests { state, threads := Function.update desk.threads caller next } := by
  intro other
  dsimp only
  by_cases hOther : other = caller
  · subst hOther
    right
    rw [Function.update_self]
    exact hEnded
  · rw [Function.update_of_ne hOther]
    exact idle other

/-- A whole call with a change of the store in between. -/
theorem visit (idle : Idle t scheme requests desk) (caller : Caller) (change : Store → Store) {last : Desk Caller}
    (hLast : last = Pool.advance { desk.advance caller with state := change (desk.advance caller).state } caller) :
    Visited t scheme desk.state (change desk.state) (requests caller) last.state ∧ Idle t scheme requests last := by
  have hEnded : ∀ outcome, desk.threads caller = .ended outcome →
      Visited t scheme desk.state (change desk.state) (requests caller) last.state ∧ Idle t scheme requests last := by
    intro outcome hThread
    rw [advance_ended hThread] at hLast
    obtain rfl := hLast.trans (advance_ended hThread)
    exact ⟨.unchanged, idle⟩
  rcases idle caller with hThread | ⟨outcome, hThread⟩
  · rcases publish_cases (requests caller) with ⟨error, hProgram⟩ | ⟨submission, hSubmit, hProgram⟩
    · exact hEnded _ (hThread.trans hProgram)
    · rw [advance_atomic (hThread.trans hProgram)] at hLast
      cases hOrders : coveredOrders submission desk.state.commerce with
      | error error =>
          rw [hOrders] at hLast
          obtain rfl := hLast.trans (advance_ended (Function.update_self caller _ _))
          exact ⟨.unchanged, idle.update caller ⟨_, rfl⟩ _⟩
      | ok orders =>
          rw [hOrders] at hLast
          obtain rfl := hLast.trans (advance_atomic (Function.update_self caller _ _))
          constructor
          · dsimp only [id]
            cases hImport : importFeed t submission orders (change desk.state) with
            | error error => exact .unchanged
            | ok result => exact .written hSubmit hOrders hImport
          · simp only [Function.update_idem]
            exact idle.update caller ⟨_, rfl⟩ _
  · exact hEnded outcome hThread

/-- Between whole calls. -/
structure InTurn (t : Toolkit) (scheme : Ed25519 Key) (requests : Caller → Request) (desk : Desk Caller) : Prop where
  onCourse : desk.OnCourse t scheme
  idle : Idle t scheme requests desk
  covered : Covered desk.state

theorem InTurn.visit (inTurn : InTurn t scheme requests desk) (next : Visit Caller) :
    InTurn t scheme requests (desk.run t.toPlatform next.steps) := by
  have onCourse := (inTurn.onCourse.run next.steps).1
  cases next with
  | commerce call =>
      exact ⟨onCourse, inTurn.idle, inTurn.covered.withCommerce rfl rfl⟩
  | publish caller between =>
      have hRun := run_publish t.toPlatform desk caller between
      obtain ⟨hVisited, hIdle⟩ := Desk.visit inTurn.idle caller (fun store => store.commerceRun t.toPlatform between) hRun
      refine ⟨onCourse, hIdle, ?_⟩
      have hAfter := onCourse.state.chronicle
      obtain ⟨hPublications, hStatuses⟩ := commerceRun_tables t.toPlatform desk.state between
      have hMiddle := inTurn.covered.withCommerce hPublications hStatuses
      generalize (desk.run t.toPlatform (Visit.publish caller between).steps).state = last at hVisited hAfter ⊢
      cases hVisited with
      | unchanged => exact hMiddle
      | @written submission orders after view hSubmit hOrders hImport =>
          rcases importFeed_cases (submit_authentic hSubmit).distinct hImport with rfl | imported
          · exact hMiddle
          · have hSequence := (inTurn.onCourse.state.commerceRun between).chronicle.next_sequence imported
            have hRows := imported.publications
            rw [hPublications] at hSequence hRows
            exact inTurn.covered.published inTurn.onCourse.state.chronicle hOrders hRows hSequence hAfter

theorem InTurn.run (inTurn : InTurn t scheme requests desk) (visits : List (Visit Caller)) :
    InTurn t scheme requests (desk.run t.toPlatform (visits.flatMap Visit.steps)) := by
  induction visits generalizing desk with
  | nil => exact inTurn
  | cons next rest ih =>
      have hRun : desk.run t.toPlatform ((next :: rest).flatMap Visit.steps) =
          (desk.run t.toPlatform next.steps).run t.toPlatform (rest.flatMap Visit.steps) := by
        rw [List.flatMap_cons]
        exact Runs.run_append desk next.steps (rest.flatMap Visit.steps)
      rw [hRun]
      exact ih (inTurn.visit next)

end Desk

namespace Desk

variable {Caller Key : Type} [DecidableEq Caller] {t : Toolkit} {scheme : Ed25519 Key} {requests : Caller → Request}
  {desk : Desk Caller}

/-- A caller that takes no step is where it was. -/
theorem threads_run {p : Platform} {caller : Caller} {steps : List (Step Caller)} (hAbsent : .publish caller ∉ steps) :
    (desk.run p steps).threads caller = desk.threads caller := by
  induction steps generalizing desk with
  | nil => rfl
  | cons step rest ih =>
      obtain ⟨hFirst, hRest⟩ := List.ne_and_not_mem_of_not_mem_cons hAbsent
      refine (ih hRest).trans ?_
      cases step with
      | commerce call => rfl
      | publish other =>
          have hOther : caller ≠ other := fun hSame => hFirst (congrArg Step.publish hSame)
          change (Pool.advance desk other).threads caller = desk.threads caller
          unfold Pool.advance
          split
          · rfl
          · exact Function.update_of_ne hOther _ _

/-- What the second step of a call writes covers the orders that its first step read. -/
theorem written_of_steps {caller : Caller} (hFresh : desk.threads caller = publish t scheme (requests caller).envelopeBytes
    (requests caller).trustedRootJwk (requests caller).publishedAt) {later : Desk Caller}
    (hLater : later.threads caller = (desk.advance caller).threads caller) :
    Visited t scheme desk.state later.state (requests caller) (later.advance caller).state := by
  rcases publish_cases (requests caller) with ⟨error, hProgram⟩ | ⟨submission, hSubmit, hProgram⟩
  · have hEnded := hFresh.trans hProgram
    rw [advance_ended hEnded, hEnded] at hLater
    rw [advance_ended hLater]
    exact .unchanged
  · rw [advance_atomic (hFresh.trans hProgram)] at hLater
    simp only [Function.update_self] at hLater
    cases hOrders : coveredOrders submission desk.state.commerce with
    | error error =>
        rw [hOrders] at hLater
        rw [advance_ended hLater]
        exact .unchanged
    | ok orders =>
        rw [hOrders] at hLater
        rw [advance_atomic hLater]
        dsimp only
        cases hImport : importFeed t submission orders later.state with
        | error error => exact .unchanged
        | ok result => exact .written hSubmit hOrders hImport

end Desk

end Paid

end VouchSpec
