import VouchSpec.Paid.Desk
import VouchSpec.Paid.Reading

/-! From a draft to its publication. What `build_draft` returns and the root signs,
`publish` accepts, up to the size of an envelope. -/

namespace VouchSpec

namespace Commerce

variable {db : Commerce} {orderId receiptId : String}

/-- An order has one receipt, and a receipt one order. -/
theorem Issued.receipt_unique {other : String} (issued : db.Issued orderId receiptId) (hOther : db.Issued orderId other) :
    receiptId = other := by
  obtain ⟨order, hOrder, -, hReceipt⟩ := issued
  obtain ⟨found, hFound, -, hSame⟩ := hOther
  obtain rfl := Option.some.inj (hOrder.symm.trans hFound)
  exact Option.some.inj (hReceipt.symm.trans hSame)

theorem Issued.order_found (issued : db.Issued orderId receiptId) :
    ∃ order, db.orders.find? (fun order => order.receiptId = some receiptId) = some order := by
  obtain ⟨order, hOrder, -, hReceipt⟩ := issued
  cases hFound : db.orders.find? (fun order => order.receiptId = some receiptId) with
  | some found => exact ⟨found, rfl⟩
  | none =>
      have hNot := List.find?_eq_none.mp hFound order (order?_eq_some.mp hOrder).1
      exact absurd (decide_eq_true hReceipt) hNot

end Commerce

namespace Paid

open Signing Lifecycle

/-- Every row of the statuses is of a delivered order and its receipt. -/
def Placed (db : Commerce) (statuses : Table StatusRow.keys Access.EitherSame) : Prop :=
  ∀ row ∈ statuses.rows, db.Issued row.orderId row.receiptId

section
variable {db : Commerce} {statuses : Table StatusRow.keys Access.EitherSame}

theorem upsert_returns (placed : Placed db statuses) {row : StatusRow} (issued : db.Issued row.orderId row.receiptId) :
    ∃ after, Store.upsert statuses row = some after ∧ Placed db after := by
  unfold Store.upsert
  split
  · refine ⟨_, rfl, ?_⟩
    intro other hOther
    rcases Table.mem_changed.mp hOther with ⟨old, hOld, -, rfl⟩ | ⟨hOld, -⟩
    · exact placed old hOld
    · exact placed other hOld
  · next hAbsent =>
      have hNew : ∀ old ∈ statuses.rows, old.receiptId ≠ row.receiptId := by
        intro old hOld hSame
        have hNone := List.find?_eq_none.mp (Option.not_isSome_iff_eq_none.mp hAbsent) old hOld
        exact hNone (decide_eq_true hSame)
      cases hInsert : statuses.insert? row with
      | none =>
          obtain ⟨old, hOld, hClash⟩ := Table.insert?_eq_none.mp hInsert
          rcases hClash with hSame | hSame
          · exact absurd hSame (hNew old hOld)
          · have hOrder : old.orderId = row.orderId := hSame
            have hIssued := placed old hOld
            rw [hOrder] at hIssued
            exact absurd (hIssued.receipt_unique issued) (hNew old hOld)
      | some after =>
          refine ⟨after, rfl, ?_⟩
          intro other hOther
          rw [(Table.insert?_eq_some.mp hInsert).2, List.mem_append, List.mem_singleton] at hOther
          rcases hOther with hOld | rfl
          · exact placed other hOld
          · exact issued

theorem applyRecords_returns {orders : List Delivered} (hIssued : ∀ item ∈ orders, db.Issued item.orderId item.receiptId)
    {records : List Record} (hListed : ∀ record ∈ records, record.receiptId ∈ orders.map Delivered.receiptId)
    (sequence : Int) (updatedAt : String) (placed : Placed db statuses) :
    ∃ after, applyRecords orders sequence updatedAt records statuses = .ok after := by
  induction records generalizing statuses with
  | nil => exact ⟨statuses, rfl⟩
  | cons record rest ih =>
      rw [List.forall_mem_cons] at hListed
      obtain ⟨item, hItem, hReceipt⟩ := List.mem_map.mp hListed.1
      have hOrder : ∃ order, orderOf orders record.receiptId = .ok order := by
        cases hFound : orders.find? fun order => order.receiptId = record.receiptId with
        | some order => exact ⟨order, Except.ofOption_eq_ok_iff.mpr hFound⟩
        | none =>
            have hNot := List.find?_eq_none.mp hFound item hItem
            exact absurd (decide_eq_true hReceipt) hNot
      obtain ⟨order, hOrder⟩ := hOrder
      obtain ⟨hMember, hSame⟩ := orderOf_eq_ok hOrder
      have hRow : db.Issued order.orderId record.receiptId := hSame ▸ hIssued order hMember
      obtain ⟨middle, hUpsert, hPlaced⟩ := @upsert_returns db statuses placed
        ⟨record.receiptId, order.orderId, record.status, record.reason.join, sequence, updatedAt⟩ hRow
      obtain ⟨after, hAfter⟩ := ih hListed.2 hPlaced
      refine ⟨after, ?_⟩
      simp only [applyRecords, hOrder, hUpsert, Except.ofOption, bind, Except.bind]
      exact hAfter

end

section
variable {Key : Type} {t : Toolkit} {scheme : Ed25519 Key} {store : Store} {submission : Submission}
  {orders : List Delivered}

theorem Chronicle.placed (chronicle : Chronicle t scheme store) : Placed store.commerce store.statuses := by
  intro row hRow
  exact (chronicle.statuses row.receiptId row (rowOf_eq_some.mpr ⟨hRow, rfl⟩)).2

/-- A stored publication can be shown while its receipts have orders. -/
theorem publicationView_returns {row : Publication} (hRow : row ∈ store.publications.rows)
    (hListed : ∀ record ∈ row.feed.receipts, ∃ orderId, store.commerce.Issued orderId record.receiptId) :
    ∃ view, store.publicationView row.sequence = .ok view := by
  have hFound : store.publications.find? (fun other => other.sequence = row.sequence) = some row := by
    rw [Table.find?_eq_some]
    · exact ⟨hRow, decide_eq_true rfl⟩
    · intro first second hFirst hSecond
      exact Or.inl ((of_decide_eq_true hFirst).trans (of_decide_eq_true hSecond).symm)
  have hReceipts : ∃ receipts, row.feed.receipts.mapM (fun record => do
      let order ← Except.ofOption Raised.keyError
        (store.commerce.orders.find? fun order => order.receiptId = some record.receiptId)
      return (record, order.orderId)) = .ok receipts := by
    rw [Except.mapM_ok_iff]
    intro record hRecord
    obtain ⟨orderId, issued⟩ := hListed record hRecord
    obtain ⟨order, hOrder⟩ := issued.order_found
    rw [hOrder]
    exact ⟨_, rfl⟩
  obtain ⟨receipts, hReceipts⟩ := hReceipts
  simp only [Store.publicationView, hFound, Except.ofOption, bind, Except.bind] at hReceipts ⊢
  rw [hReceipts]
  exact ⟨_, rfl⟩

/-- What the write transaction asks of a submission that is next. -/
structure Acceptable (submission : Submission) (orders : List Delivered) (store : Store) : Prop where
  root : store.rootKeyid = none ∨ store.rootKeyid = some submission.rootKeyid
  sequence : submission.feed.sequence = (store.latest?.map Publication.sequence).getD 0 + 1
  transitions : validateIssuerTransitions submission.feed (store.latest?.map Publication.feed) = .ok ()
  records : ∀ record ∈ submission.feed.receipts, record.receiptId ∈ orders.map Delivered.receiptId ∧
    validateTransition (store.status? record.receiptId) (rawOfRecord record) (orders.map Delivered.receiptId) = .ok ()
  issued : ∀ item ∈ orders, store.commerce.Issued item.orderId item.receiptId
  fresh : ∀ row ∈ store.publications.rows, row.payloadSha256 ≠ submission.payloadSha256

theorem importFeed_returns (chronicle : Chronicle t scheme store) (acceptable : Acceptable submission orders store) :
    ∃ after view, importFeed t submission orders store = .ok (after, view) ∧
      after.publications.rows = store.publications.rows ++ [publicationOf t submission] := by
  have hSequence := acceptable.sequence
  have hAbove : ∀ row ∈ store.publications.rows, row.sequence < submission.feed.sequence := by
    intro row hRow
    have hBelow := chronicle.sequence_le hRow
    rw [chronicle.latest?_sequence] at hSequence
    omega
  have hLatest : ∀ row ∈ store.latest?, row.sequence < submission.feed.sequence :=
    fun row hRow => hAbove row (List.argmax_mem hRow)
  have hNotLatest : store.latest?.map Publication.sequence ≠ some submission.feed.sequence := by
    intro hSame
    obtain ⟨row, hRow, hSame⟩ := Option.map_eq_some_iff.mp hSame
    have hLess := hLatest row hRow
    omega
  have hInsert : ∃ publications, store.publications.insert? (publicationOf t submission) = some publications := by
    cases h : store.publications.insert? (publicationOf t submission) with
    | some publications => exact ⟨publications, rfl⟩
    | none =>
        obtain ⟨row, hRow, hClash⟩ := Table.insert?_eq_none.mp h
        rcases hClash with hSame | hSame
        · have hEqual : row.sequence = submission.feed.sequence := hSame
          exact absurd (hAbove row hRow) (by omega)
        · exact absurd hSame (acceptable.fresh row hRow)
  obtain ⟨publications, hInsert⟩ := hInsert
  obtain ⟨statuses, hStatuses⟩ := applyRecords_returns acceptable.issued (fun record hRecord => (acceptable.records record hRecord).1)
    submission.feed.sequence (t.timestamp submission.observed) chronicle.placed
  have hRows := (Table.insert?_eq_some.mp hInsert).2
  let after : Store := { store with publications, statuses, rootKeyid := some submission.rootKeyid }
  have hView : ∃ view, after.publicationView (publicationOf t submission).sequence = .ok view := by
    apply publicationView_returns
    · change _ ∈ publications.rows
      rw [hRows]
      exact List.mem_append_right _ (List.mem_singleton_self _)
    · intro record hRecord
      obtain ⟨item, hItem, hSame⟩ := List.mem_map.mp (acceptable.records record hRecord).1
      exact ⟨item.orderId, hSame ▸ acceptable.issued item hItem⟩
  obtain ⟨view, hView⟩ := hView
  refine ⟨after, view, ?_, hRows⟩
  have hTransitions : (submission.feed.receipts.forM fun record =>
      validateTransition (store.status? record.receiptId) (rawOfRecord record) (orders.map Delivered.receiptId)) = .ok () :=
    Except.forM_eq_ok_iff.mpr fun record hRecord => (acceptable.records record hRecord).2
  simp only [importFeed, Except.bind_eq_ok_iff, require_eq_ok, exists_const]
  refine ⟨acceptable.root, fun row hRow => (hLatest row hRow).le, ?_⟩
  rw [if_neg hNotLatest]
  simp only [Except.bind_eq_ok_iff, require_eq_ok, exists_const, Except.ofOption_eq_ok_iff, Except.pure_eq_ok_iff]
  exact ⟨hSequence, (), acceptable.transitions, (), hTransitions, publications, hInsert, statuses, hStatuses, view, hView,
    rfl⟩

/-- A call without interruption returns what its checks and its two steps do. -/
theorem publish_returns {request : Request} {after : Store} {view : PublicationView} :
    (publish t scheme request.envelopeBytes request.trustedRootJwk request.publishedAt).run.Returns store view after ↔
      ∃ submission orders, submit t scheme request.envelopeBytes request.trustedRootJwk request.publishedAt = .ok submission ∧
        coveredOrders submission store.commerce = .ok orders ∧ importFeed t submission orders store = .ok (after, view) := by
  simp only [publish, Program.run_bind, Program.run_check, Program.run_read, Program.run_call, Routine.returns_bind,
    Routine.returns_reading, Routine.returns_transaction]
  constructor
  · rintro ⟨submission, _, ⟨hSubmit, rfl⟩, orders, _, ⟨hOrders, rfl⟩, hImport⟩
    exact ⟨submission, orders, hSubmit, hOrders, hImport⟩
  · rintro ⟨submission, orders, hSubmit, hOrders, hImport⟩
    exact ⟨submission, _, ⟨hSubmit, rfl⟩, orders, _, ⟨hOrders, rfl⟩, hImport⟩

/-- What a call of `build_draft` that returns has read and checked. -/
theorem buildDraft_returns {issuerKeys : Json} {generatedAt expiresAt : Int} {changes : List (String × Json)}
    {after : Store} {draft : Bytes} (h : (buildDraft t issuerKeys generatedAt expiresAt changes).run.Returns store draft after) :
    after = store ∧ expiresAt - generatedAt ≤ maxFeedLifetime ∧ ∃ orders, deliveredOrders store.commerce = .ok orders ∧
      orders ≠ [] ∧ draftOf t issuerKeys generatedAt expiresAt changes orders store = .ok draft := by
  simp only [buildDraft, Program.run_bind, Program.run_check, Program.run_read, Routine.returns_bind,
    Routine.returns_reading, require_eq_ok] at h
  obtain ⟨_, _, ⟨hLifetime, rfl⟩, _, _, ⟨-, rfl⟩, orders, _, ⟨hOrders, rfl⟩, _, _, ⟨hSome, rfl⟩, hDraft, rfl⟩ := h
  exact ⟨rfl, hLifetime.2, orders, hOrders, hSome, hDraft⟩

theorem validateIssuerCoverage_sorted (feed : Feed) (orders : List Delivered) :
    validateIssuerCoverage feed.sorted orders = validateIssuerCoverage feed orders := by
  unfold validateIssuerCoverage
  apply require_congr
  have hKeyids : feed.sorted.issuerKeys.map Issuer.keyid = feed.issuerKeys.map Issuer.keyid := by
    rw [Feed.sorted, List.map_map]
    rfl
  rw [hKeyids]
  refine and_congr_right fun _ => ?_
  simp only [Feed.sorted, List.forall_mem_map]
  rfl

theorem validateIssuerTransitions_sorted {feed : Feed} {priorFeed : Option Feed} :
    validateIssuerTransitions feed.sorted priorFeed = validateIssuerTransitions feed priorFeed := by
  cases priorFeed with
  | none => rfl
  | some prior =>
      have hKeyids : feed.sorted.issuerKeys.map Issuer.keyid = feed.issuerKeys.map Issuer.keyid := by
        rw [Feed.sorted, List.map_map]
        rfl
      have hOne : validateIssuerTransition feed.sorted = validateIssuerTransition feed := by
        funext issuer
        have hFound : feed.sorted.issuer? issuer.keyid = (feed.issuer? issuer.keyid).map Issuer.sorted := by
          rw [Feed.issuer?, Feed.issuer?, Feed.sorted, List.find?_map]
          rfl
        unfold validateIssuerTransition
        rw [hFound]
        cases feed.issuer? issuer.keyid <;> rfl
      simp only [validateIssuerTransitions, hKeyids, hOne]

end

/-- The largest draft whose envelope `publish` takes. -/
def maxDraftBytes : Nat := 824811

/-- What the publication of a draft leaves: the envelope, every state that no change was
asked for, the new receipts as current, and the changes. -/
structure Published (store : Store) (changes : List (String × Json)) (envelope : Bytes) (after : Store) : Prop where
  latest : after.latestEnvelope = .ok envelope
  kept : ∀ receiptId row, store.status? receiptId = some row → changeOf changes receiptId = none →
    ∃ later, after.status? receiptId = some later ∧ later.state = row.state
  new : ∀ orderId receiptId, store.commerce.Issued orderId receiptId → store.status? receiptId = none →
    changeOf changes receiptId = none → ∃ row, after.status? receiptId = some row ∧ row.state = (.current, none)
  changed : ∀ receiptId change, changeOf changes receiptId = some change →
    ∃ row, after.status? receiptId = some row ∧ change.get? "status" = some (.str (statusValue row.status))

section
variable {Key : Type} {t : Toolkit} {scheme : Ed25519 Key} {store after : Store} {value envelope : Json} {feed : Feed}
  {rootKey : Key} {generatedAt expiresAt publishedAt : Int} {changes : List (String × Json)} {orders : List Delivered}

theorem length_signed (hPlain : value.Plain readableDepth)
    (hSigned : signLifecycleFeed t scheme (deterministicJson value) rootKey = .ok envelope) :
    (jsonLine envelope).length = 251 + 4 * (((deterministicJson value).length + 2) / 3) := by
  simp only [signLifecycleFeed, t.strictJson_deterministicJson hPlain, Except.bind_eq_ok_iff] at hSigned
  obtain ⟨_, -, _, -, hSigned⟩ := hSigned
  have hType : Profile.lifecycle.payloadType.toList.length = 51 := by decide
  have hLength := jsonLine_length (Profile.safe .lifecycle) hSigned
  omega

/-- The envelope of a draft passes the checks that do not look at the store exactly when
it is small enough and in time. -/
theorem submit_signed (hCorrect : scheme.Correct) (prepared : Prepared t generatedAt expiresAt changes orders store value feed)
    (hLifetime : expiresAt - generatedAt ≤ maxFeedLifetime)
    (hSigned : signLifecycleFeed t scheme (deterministicJson value) rootKey = .ok envelope) {submission : Submission} :
    submit t scheme (jsonLine envelope) (publicJwk scheme rootKey) publishedAt = .ok submission ↔
      ((deterministicJson value).length ≤ maxDraftBytes ∧ generatedAt / 1000000 * 1000000 ≤ publishedAt + minutes 5 ∧
        publishedAt < expiresAt / 1000000 * 1000000) ∧
      submission = { feed := feed.sorted, rootKeyid := keyidOf t scheme rootKey
                     payloadSha256 := (t.sha256 (deterministicJson value)).hexdigest
                     envelopeBody := jsonLine envelope, observed := publishedAt } := by
  have hVerified := verifyLifecycleEnvelope_signed hCorrect prepared.plain prepared.valid hSigned
  have hLength := length_signed prepared.plain hSigned
  have hGenerated : feed.sorted.generated = generatedAt / 1000000 * 1000000 := prepared.generated
  have hExpires : feed.sorted.expires = expiresAt / 1000000 * 1000000 := prepared.expires
  have hWeek : expiresAt / 1000000 * 1000000 - generatedAt / 1000000 * 1000000 ≤ maxFeedLifetime := by
    unfold maxFeedLifetime minutes at *
    omega
  simp only [submit, hVerified, jwkThumbprint_publicJwk, Except.bind_eq_ok_iff, require_eq_ok, exists_const,
    Except.pure_eq_ok_iff, Except.ok.injEq, exists_eq_left', not_or, hGenerated, hExpires, not_lt, not_le,
    maxDraftBytes, hLength]
  constructor
  · rintro ⟨⟨-, hSize⟩, ⟨hStart, hEnd, -⟩, rfl⟩
    exact ⟨⟨by omega, hStart, hEnd⟩, rfl⟩
  · rintro ⟨⟨hSize, hStart, hEnd⟩, rfl⟩
    exact ⟨by omega, ⟨hStart, hEnd, hWeek⟩, rfl⟩

/-- The records of a draft are the receipts of the delivered orders. -/
theorem Prepared.receiptIds (prepared : Prepared t generatedAt expiresAt changes orders store value feed) :
    feed.receipts.map Record.receiptId = receiptsOf orders := by
  have hRecords := prepared.records
  generalize feed.receipts = records at hRecords
  generalize receiptsOf orders = ids at hRecords
  induction hRecords with
  | nil => rfl
  | cons hFirst _ ih => rw [List.map_cons, hFirst.named, ih]

theorem Prepared.drafted (prepared : Prepared t generatedAt expiresAt changes orders store value feed) {record : Record}
    (hRecord : record ∈ feed.receipts) :
    Drafted store changes (orders.map Delivered.receiptId) record.receiptId record := by
  obtain ⟨receiptId, -, drafted⟩ := prepared.records.exists_left hRecord
  obtain rfl := drafted.named
  exact drafted

theorem Prepared.listed (prepared : Prepared t generatedAt expiresAt changes orders store value feed) {receiptId : String}
    (hReceipt : receiptId ∈ orders.map Delivered.receiptId) : ∃ record ∈ feed.receipts, record.receiptId = receiptId := by
  rw [← mem_receiptsOf, ← prepared.receiptIds] at hReceipt
  exact List.mem_map.mp hReceipt

theorem coveredOrders_signed (prepared : Prepared t generatedAt expiresAt changes orders store value feed)
    (hOrders : deliveredOrders store.commerce = .ok orders) (hSome : orders ≠ []) {submission : Submission}
    (hFeed : submission.feed = feed.sorted) : coveredOrders submission store.commerce = .ok orders := by
  have hCoverage : validateIssuerCoverage feed.sorted orders = .ok () :=
    (validateIssuerCoverage_sorted feed orders).trans prepared.coverage
  have hIds : feed.sorted.receipts.map Record.receiptId = receiptsOf orders := prepared.receiptIds
  simp only [coveredOrders, hFeed, hOrders, hCoverage, Except.bind_eq_ok_iff, require_eq_ok, exists_const,
    Except.pure_eq_ok_iff, Except.ok.injEq, exists_eq_left', hIds, mem_receiptsOf, and_true]
  refine ⟨hSome, trivial, ?_, fun item hItem => List.mem_map_of_mem hItem⟩
  intro record hRecord
  rw [← mem_receiptsOf, ← hIds]
  exact List.mem_map_of_mem hRecord

/-- What a draft has prepared is next for the write transaction, under the same root. -/
theorem acceptable_signed (prepared : Prepared t generatedAt expiresAt changes orders store value feed)
    (hOrders : deliveredOrders store.commerce = .ok orders) {submission : Submission} (hFeed : submission.feed = feed.sorted)
    (hRoot : store.rootKeyid = none ∨ store.rootKeyid = some submission.rootKeyid)
    (hFresh : ∀ row ∈ store.publications.rows, row.payloadSha256 ≠ submission.payloadSha256) :
    Acceptable submission orders store where
  root := hRoot
  sequence := by
    rw [hFeed]
    exact prepared.sequence
  transitions := by
    rw [hFeed, validateIssuerTransitions_sorted]
    exact prepared.transitions
  records := by
    rw [hFeed]
    intro record hRecord
    have hListed : record.receiptId ∈ receiptsOf orders := prepared.receiptIds ▸ List.mem_map_of_mem hRecord
    exact ⟨mem_receiptsOf.mp hListed, (prepared.drafted hRecord).allowed⟩
  issued := fun item hItem => issued_of_deliveredOrders hOrders hItem
  fresh := hFresh

/-- What the write transaction leaves of a draft. -/
theorem published_of_imported (prepared : Prepared t generatedAt expiresAt changes orders store value feed)
    (chronicle : Chronicle t scheme store) (hOrders : deliveredOrders store.commerce = .ok orders) {submission : Submission}
    (hFeed : submission.feed = feed.sorted) (imported : Imported t submission orders store after)
    (hAfter : Chronicle t scheme after) : Published store changes submission.envelopeBody after := by
  have hStated : ∀ receiptId ∈ orders.map Delivered.receiptId, ∃ record row,
      Drafted store changes (orders.map Delivered.receiptId) receiptId record ∧ after.status? receiptId = some row ∧
        row.state = record.state := by
    intro receiptId hReceipt
    obtain ⟨record, hRecord, rfl⟩ := prepared.listed hReceipt
    have hMember : record ∈ submission.feed.receipts := by
      rw [hFeed]
      exact hRecord
    obtain ⟨row, hRow, rowFor⟩ := imported.statuses.listed record hMember
    exact ⟨record, row, prepared.drafted hRecord, hRow, rowFor.state⟩
  constructor
  · have hLatest : after.latest? = some (publicationOf t submission) := by
      have hNew : publicationOf t submission ∈ after.publications.rows := by
        rw [imported.publications]
        exact List.mem_append_right _ (List.mem_singleton_self _)
      cases hLatest : after.latest? with
      | none =>
          rw [List.argmax_eq_none.mp hLatest] at hNew
          cases hNew
      | some latest =>
          have hMember : latest ∈ after.publications.rows := List.argmax_mem hLatest
          have hTop : (publicationOf t submission).sequence ≤ latest.sequence := List.le_of_mem_argmax hNew hLatest
          have hBelow := hAfter.sequence_le hMember
          have hNext := chronicle.next_sequence imported
          rw [imported.publications, List.length_append, List.length_singleton] at hBelow
          exact congrArg some (hAfter.sequence_injective hMember hNew (by omega))
    rw [Store.latestEnvelope, hLatest]
    rfl
  · intro receiptId row hRow hChange
    have hIssued := (chronicle.statuses receiptId row hRow).2
    obtain ⟨record, later, drafted, hLater, hState⟩ := hStated receiptId (mem_deliveredOrders hOrders hIssued)
    exact ⟨later, hLater, hState.trans (drafted.kept hChange hRow)⟩
  · intro orderId receiptId hIssued hRow hChange
    obtain ⟨record, row, drafted, hNew, hState⟩ := hStated receiptId (mem_deliveredOrders hOrders hIssued)
    exact ⟨row, hNew, hState.trans (drafted.new hChange hRow)⟩
  · intro receiptId change hChange
    have hReceipt : receiptId ∈ orders.map Delivered.receiptId := by
      have hFound : (Json.obj changes).get? receiptId = some change := by
        unfold changeOf at hChange
        split at hChange
        · cases hChange
        · exact hChange
      obtain ⟨member, hMember, -⟩ := Option.map_eq_some_iff.mp hFound
      have hName := List.find?_some hMember
      rw [← of_decide_eq_true hName]
      exact prepared.known member (List.mem_of_find?_eq_some hMember)
    obtain ⟨record, row, drafted, hRow, hState⟩ := hStated receiptId hReceipt
    refine ⟨row, hRow, ?_⟩
    have hStatus : row.status = record.status := congrArg Prod.fst hState
    rw [hStatus]
    exact drafted.changed hChange

end

theorem root_of_import {t : Toolkit} {submission : Submission} {orders : List Delivered} {store after : Store}
    {view : PublicationView} (h : importFeed t submission orders store = .ok (after, view)) :
    store.rootKeyid = none ∨ store.rootKeyid = some submission.rootKeyid := by
  simp only [importFeed, Except.bind_eq_ok_iff, require_eq_ok, exists_const] at h
  exact h.1

/-- What a draft is asked for: the issuers and the changes are JSON documents. -/
structure DraftRequest where
  issuerKeys : Json
  generatedAt : Int
  expiresAt : Int
  changes : List (String × Json)
  plainIssuers : ∃ depth, issuerKeys.Plain depth
  plainChanges : ∃ depth, (Json.obj changes).Plain depth

/-- A draft of the store that the root has signed, of which no earlier payload has the digest. -/
structure SignedDraft {Key : Type} (t : Toolkit) (scheme : Ed25519 Key) (store : Store) (request : DraftRequest)
    (rootKey : Key) (draft : Bytes) (envelope : Json) : Prop where
  drafted : (buildDraft t request.issuerKeys request.generatedAt request.expiresAt request.changes).run.Returns store draft
    store
  signed : signLifecycleFeed t scheme draft rootKey = .ok envelope
  fresh : ∀ row ∈ store.publications.rows, row.payloadSha256 ≠ (t.sha256 draft).hexdigest

/-- The envelope is small enough, and in time. -/
def Timely (request : DraftRequest) (draft : Bytes) (publishedAt : Int) : Prop :=
  draft.length ≤ maxDraftBytes ∧ request.generatedAt / 1000000 * 1000000 ≤ publishedAt + minutes 5 ∧
    publishedAt < request.expiresAt / 1000000 * 1000000

theorem draft_published_of_sound {Key : Type} {t : Toolkit} {scheme : Ed25519 Key} {store : Store}
    (sound : Sound t scheme store) (hCorrect : scheme.Correct) {request : DraftRequest} {rootKey : Key} {draft : Bytes}
    {envelope : Json} (signedDraft : SignedDraft t scheme store request rootKey draft envelope) (publishedAt : Int) :
    ((∃ view after, (publish t scheme (jsonLine envelope) (publicJwk scheme rootKey) publishedAt).run.Returns store view
        after) ↔
      Timely request draft publishedAt ∧
        (store.rootKeyid = none ∨ store.rootKeyid = some (keyidOf t scheme rootKey))) ∧
      ∀ view after, (publish t scheme (jsonLine envelope) (publicJwk scheme rootKey) publishedAt).run.Returns store view
        after → Published store request.changes (jsonLine envelope) after := by
  obtain ⟨-, hLifetime, orders, hOrders, hSome, hDraftOf⟩ := buildDraft_returns signedDraft.drafted
  obtain ⟨_, hIssuers⟩ := request.plainIssuers
  obtain ⟨_, hChanges⟩ := request.plainChanges
  obtain ⟨value, feed, rfl, prepared⟩ := prepared_of_draft hIssuers hChanges hDraftOf
  have hReturns := fun after view =>
    @publish_returns Key t scheme store ⟨jsonLine envelope, publicJwk scheme rootKey, publishedAt⟩ after view
  have hAcceptable : ∀ {submission}, submit t scheme (jsonLine envelope) (publicJwk scheme rootKey) publishedAt =
      .ok submission → (store.rootKeyid = none ∨ store.rootKeyid = some submission.rootKeyid) →
        Acceptable submission orders store := by
    intro submission hSubmit hRoot
    obtain ⟨-, rfl⟩ := (submit_signed hCorrect prepared hLifetime signedDraft.signed).mp hSubmit
    exact acceptable_signed prepared hOrders rfl hRoot signedDraft.fresh
  constructor
  · constructor
    · rintro ⟨view, after, hPublish⟩
      obtain ⟨submission, _, hSubmit, -, hImport⟩ := (hReturns after view).mp hPublish
      obtain ⟨hTimely, rfl⟩ := (submit_signed hCorrect prepared hLifetime signedDraft.signed).mp hSubmit
      exact ⟨hTimely, root_of_import hImport⟩
    · rintro ⟨hTimely, hRoot⟩
      have hSubmit := (submit_signed hCorrect prepared hLifetime signedDraft.signed).mpr ⟨hTimely, rfl⟩
      obtain ⟨after, view, hImport, -⟩ := importFeed_returns sound.chronicle (hAcceptable hSubmit hRoot)
      exact ⟨view, after, (hReturns after view).mpr
        ⟨_, orders, hSubmit, coveredOrders_signed prepared hOrders hSome rfl, hImport⟩⟩
  · intro view after hPublish
    obtain ⟨submission, found, hSubmit, hCovered, hImport⟩ := (hReturns after view).mp hPublish
    have authentic := submit_authentic hSubmit
    obtain ⟨-, rfl⟩ := (submit_signed hCorrect prepared hLifetime signedDraft.signed).mp hSubmit
    obtain rfl := Except.ok.inj ((coveredOrders_signed prepared hOrders hSome rfl).symm.trans hCovered)
    obtain ⟨hAfter, -⟩ := sound.importFeed authentic (fun item hItem => issued_of_deliveredOrders hOrders hItem) hImport
    rcases importFeed_cases authentic.distinct hImport with rfl | imported
    · -- A draft is never the publication that the store has already.
      obtain ⟨next, other, hNext, hRows⟩ := importFeed_returns sound.chronicle
        (hAcceptable hSubmit (root_of_import hImport))
      cases hImport.symm.trans hNext
      exact absurd (congrArg List.length hRows) (by simp)
    · exact published_of_imported prepared sound.chronicle hOrders rfl imported hAfter.chronicle

namespace Sample

def issuer : Json :=
  .obj [("keyid", .str (keyidOf .standard (.keyedDigest .standard) issuerKey)),
    ("jwk", (publicJwk (.keyedDigest .standard) issuerKey).sorted), ("status", .str IssuerStatus.active.value)]

/-- A draft for a week, without changes. -/
def draftRequest : DraftRequest where
  issuerKeys := .arr [issuer]
  generatedAt := VouchSpec.Sample.newYear
  expiresAt := VouchSpec.Sample.newYear + maxFeedLifetime
  changes := []
  plainIssuers := ⟨5, by
    have hJwk : (publicJwk (.keyedDigest .standard) issuerKey).sorted.Plain 3 :=
      (plain_publicJwk _ issuerKey).sorted.mono (by decide)
    simp [issuer, hJwk]⟩
  plainChanges := ⟨1, by simp⟩

def draftValue : Json :=
  draftFeed .standard 1 (.arr [issuer]) VouchSpec.Sample.newYear (VouchSpec.Sample.newYear + maxFeedLifetime)
    [keptRecord evidence.receiptId none]

def draftRead : Feed :=
  ⟨1, "2026-01-01T00:00:00Z", "2026-01-08T00:00:00Z", 1767225600000000, 1767830400000000,
    [sampleIssuer .active issuerKey], [⟨evidence.receiptId, .current, none⟩]⟩

theorem validate_draftValue : validateLifecycleFeed .standard draftValue = .ok draftRead := by
  have hGenerated := (time_sample "generated_at").1
  have hExpires := (time_sample "expires_at").2
  have hIssuers : readIssuers .standard [] [issuer] = .ok [sampleIssuer .active issuerKey] :=
    readIssuers_sampleFeed .active issuerKey
  have hRecords : readRecords [] [keptRecord evidence.receiptId none] = .ok [⟨evidence.receiptId, .current, none⟩] := by
    decide +kernel
  have hFrom : Toolkit.standard.timestamp VouchSpec.Sample.newYear = "2026-01-01T00:00:00Z" := by decide +kernel
  have hUntil : Toolkit.standard.timestamp (VouchSpec.Sample.newYear + maxFeedLifetime) = "2026-01-08T00:00:00Z" := by
    decide +kernel
  simp [validateLifecycleFeed, draftValue, draftFeed, hFrom, hUntil, Json.hasExactly, Json.member, Json.get?, require,
    Json.int?, Except.ofOption, hGenerated, hExpires, boundedItems, hIssuers, hRecords, bind, lifecycleSchemaVersion,
    Except.bind, pure, Except.pure, draftRead]

theorem draftValue_length : (deterministicJson draftValue).length ≤ maxDraftBytes := by decide +kernel

theorem draftOf_sample : draftOf .standard draftRequest.issuerKeys draftRequest.generatedAt draftRequest.expiresAt
    draftRequest.changes [delivered] { commerce } = .ok (deterministicJson draftValue) := by
  have hRecords : deriveRecords [delivered] { commerce } [] = .ok [keptRecord evidence.receiptId none] := by decide +kernel
  have hCoverage : validateIssuerCoverage draftRead [delivered] = .ok () := by
    simp [validateIssuerCoverage, draftRead, sampleIssuer, delivered, require]
  have hValid := validate_draftValue
  unfold draftValue at hValid
  simp only [draftOf, draftRequest, hRecords, Except.bind_eq_ok_iff, require_eq_ok, exists_const, Except.pure_eq_ok_iff]
  refine ⟨_, rfl, draftRead, hValid, (), hCoverage, (), rfl, ?_, rfl⟩
  exact Nat.one_lt_pow (by decide) (by decide)
/-- The draft of the delivered order, signed by its root. -/
theorem signedDraft : ∃ draft envelope, draft.length ≤ maxDraftBytes ∧
    SignedDraft .standard (.keyedDigest .standard) { commerce } draftRequest [2] draft envelope := by
  obtain ⟨_, hIssuers⟩ := draftRequest.plainIssuers
  obtain ⟨_, hChanges⟩ := draftRequest.plainChanges
  obtain ⟨value, feed, hDraft, prepared⟩ := prepared_of_draft hIssuers hChanges draftOf_sample
  have hLength := draftValue_length
  rw [hDraft] at hLength
  have hSize : (deterministicJson value).length ≤ 1000000 := hLength.trans (by decide)
  obtain ⟨envelope, hSigned⟩ := @signLifecycleFeed_of_valid _ .standard (.keyedDigest .standard) _ _ [2] prepared.plain
    prepared.valid hSize
  refine ⟨deterministicJson value, envelope, hLength, ?_, hSigned, fun row hRow => absurd hRow List.not_mem_nil⟩
  rw [← hDraft]
  simp only [buildDraft, Program.run_bind, Program.run_check, Program.run_read, Routine.returns_bind,
    Routine.returns_reading, require_eq_ok]
  refine ⟨(), { commerce }, ⟨by decide, rfl⟩, (), { commerce }, ⟨by decide, rfl⟩, [delivered], { commerce }, ⟨?_, rfl⟩,
    (), { commerce }, ⟨List.cons_ne_nil _ _, rfl⟩, draftOf_sample, rfl⟩
  dsimp only
  exact commerce_reads.1

end Sample

/-- In every store that publications and orders can lead to, what `build_draft` returns
and the root signs is published exactly when it has at most `maxDraftBytes` bytes, comes
in its time, and the root is the store's, if it has one; and then it leaves what it says. -/
theorem draft_published {Caller Key : Type} [DecidableEq Caller] (t : Toolkit) (scheme : Ed25519 Key)
    (hCorrect : scheme.Correct) (commerce : Commerce) (hReachable : commerce.Reachable t.toPlatform)
    (requests : Caller → Request) (steps : List (Step Caller)) (request : DraftRequest) (rootKey : Key) (draft : Bytes)
    (envelope : Json) (publishedAt : Int)
    (hSigned : SignedDraft t scheme ((Desk.opening t scheme { commerce } requests).run t.toPlatform steps).state request
      rootKey draft envelope) :
    let store := ((Desk.opening t scheme { commerce } requests).run t.toPlatform steps).state
    let publication := (publish t scheme (jsonLine envelope) (publicJwk scheme rootKey) publishedAt).run
    ((∃ view after, publication.Returns store view after) ↔ Timely request draft publishedAt ∧
        (store.rootKeyid = none ∨ store.rootKeyid = some (keyidOf t scheme rootKey))) ∧
      ∀ view after, publication.Returns store view after → Published store request.changes (jsonLine envelope) after :=
  draft_published_of_sound ((Desk.onCourse_opening ⟨.opening commerce, hReachable⟩ requests).run steps).1.state hCorrect
    hSigned publishedAt

theorem draft_published_sample : ∃ draft envelope,
    SignedDraft .standard (.keyedDigest .standard) { commerce := Sample.commerce } Sample.draftRequest [2] draft envelope ∧
      ∃ view after, (publish .standard (.keyedDigest .standard) (jsonLine envelope) (publicJwk (.keyedDigest .standard) [2])
          VouchSpec.Sample.newYear).run.Returns { commerce := Sample.commerce } view after ∧
        Published { commerce := Sample.commerce } [] (jsonLine envelope) after := by
  obtain ⟨draft, envelope, hLength, hSigned⟩ := Sample.signedDraft
  have hPublished := draft_published .standard (.keyedDigest .standard) (Ed25519.keyedDigest_correct .standard) Sample.commerce
    Sample.commerce_reachable Sample.requests [] Sample.draftRequest [2] draft envelope VouchSpec.Sample.newYear hSigned
  obtain ⟨view, after, hReturns⟩ := hPublished.1.mpr ⟨⟨hLength, by decide, by decide⟩, Or.inl rfl⟩
  exact ⟨draft, envelope, hSigned, view, after, hReturns, hPublished.2 view after hReturns⟩

end Paid

end VouchSpec
