import VouchSpec.Commerce.Replay
import VouchSpec.Paid.Import

/-! What the publications of a paid lifecycle come to: one chain of feeds under one
root, where no receipt leaves a terminal state, beside the orders they speak of. -/

namespace VouchSpec

/-- The order is delivered, with the receipt. -/
def Commerce.Issued (db : Commerce) (orderId receiptId : String) : Prop :=
  ∃ order, db.order? orderId = some order ∧ order.orderStatus = .delivered ∧ order.receiptId = some receiptId

/-- A delivered order stays delivered, with its receipt. -/
theorem Commerce.Issued.step {p : Platform} {db : Commerce} {orderId receiptId : String}
    (issued : db.Issued orderId receiptId) (wellFormed : WellFormed p db) (call : Call) :
    (db.step p call).Issued orderId receiptId := by
  obtain ⟨order, hOrder, hStatus, hReceipt⟩ := issued
  obtain ⟨later, hLater, -, keeps⟩ := (step_continues wellFormed call).order wellFormed hOrder
  refine ⟨later, hLater, keeps.delivered hStatus, ?_⟩
  rw [keeps.receiptId (by rw [hReceipt]; rfl), hReceipt]

namespace Paid

open Signing Lifecycle

/-- The publication gives the receipt a state. -/
def Publication.Gives (row : Publication) (receiptId : String) (state : ReceiptStatus × Option String) : Prop :=
  ∃ record ∈ row.feed.receipts, record.receiptId = receiptId ∧ record.state = state

/-- How a later publication goes on from an earlier one: under the same root, with
every issuer, and with the terminal states that it repeats. -/
structure Publication.Precedes (earlier later : Publication) : Prop where
  root : earlier.rootKeyid = later.rootKeyid
  issuers : IssuersKept earlier.feed later.feed
  terminal : ∀ receiptId state other, earlier.Gives receiptId state → state.1 ≠ .current →
    later.Gives receiptId other → other = state

/-- A publication is of the feed that its root has signed. -/
structure Publication.Authentic {Key : Type} (t : Toolkit) (scheme : Ed25519 Key) (row : Publication) : Prop where
  signed : ∃ rootJwk payload, jwkThumbprint t rootJwk = .ok row.rootKeyid ∧
    verifyLifecycleEnvelope t scheme row.envelopeBody rootJwk = .ok (row.feed, payload) ∧
    row.payloadSha256 = (t.sha256 payload).hexdigest
  sequence : row.sequence = row.feed.sequence
  lifetime : row.feed.expires - row.feed.generated ≤ maxFeedLifetime

/-- The row of a receipt repeats the last publication that lists it. -/
structure Repeats (rows : List Publication) (receiptId : String) (row : StatusRow) : Prop where
  source : ∃ publication ∈ rows, publication.sequence = row.sequence ∧ publication.Gives receiptId row.state
  last : ∀ publication ∈ rows, row.sequence < publication.sequence → ∀ state, ¬publication.Gives receiptId state

/-- The publications of a store and its statuses. -/
structure Chronicle {Key : Type} (t : Toolkit) (scheme : Ed25519 Key) (store : Store) : Prop where
  authentic : ∀ row ∈ store.publications.rows, row.Authentic t scheme
  sequences : store.publications.rows.map Publication.sequence =
    (List.range store.publications.rows.length).map fun index : Nat => (index : Int) + 1
  root : ∀ row ∈ store.publications.rows, store.rootKeyid = some row.rootKeyid
  precedes : ∀ earlier ∈ store.publications.rows, ∀ later ∈ store.publications.rows,
    earlier.sequence < later.sequence → earlier.Precedes later
  first : ∀ row ∈ store.publications.rows, ∀ receiptId state, row.Gives receiptId state → state.1 ≠ .current →
    ∃ earlier ∈ store.publications.rows, earlier.sequence < row.sequence ∧
      ∃ former, earlier.Gives receiptId former ∧ former.1 = .current
  listed : ∀ row ∈ store.publications.rows, ∀ receiptId state, row.Gives receiptId state →
    ∃ status, rowOf store.statuses receiptId = some status
  statuses : ∀ receiptId status, rowOf store.statuses receiptId = some status →
    Repeats store.publications.rows receiptId status ∧ store.commerce.Issued status.orderId receiptId

section
variable {Key : Type} {t : Toolkit} {scheme : Ed25519 Key} {store after : Store} {submission : Submission}
  {orders : List Delivered}

theorem verifyLifecycleEnvelope_distinct {envelopeBytes payload : Bytes} {trustedRootJwk : Json} {feed : Feed}
    (hFeed : verifyLifecycleEnvelope t scheme envelopeBytes trustedRootJwk = .ok (feed, payload)) : feed.Distinct := by
  simp only [verifyLifecycleEnvelope, Except.bind_eq_ok_iff, Except.pure_eq_ok_iff, Prod.mk.injEq] at hFeed
  obtain ⟨_, -, value, -, _, hValid, rfl, -⟩ := hFeed
  exact validateLifecycleFeed_distinct hValid

theorem Publication.Authentic.distinct {row : Publication} (authentic : row.Authentic t scheme) : row.feed.Distinct := by
  obtain ⟨_, _, -, hFeed, -⟩ := authentic.signed
  exact verifyLifecycleEnvelope_distinct hFeed

/-- A publication gives a receipt one state at most. -/
theorem Publication.Gives.unique {row : Publication} (distinct : row.feed.Distinct) {receiptId : String}
    {state other : ReceiptStatus × Option String} (gives : row.Gives receiptId state)
    (hOther : row.Gives receiptId other) : state = other := by
  obtain ⟨first, hFirst, hId, rfl⟩ := gives
  obtain ⟨second, hSecond, rfl, rfl⟩ := hOther
  rw [List.inj_on_of_nodup_map distinct.receiptIds hFirst hSecond hId]

/-- Nothing is published yet. -/
theorem Chronicle.opening (commerce : Commerce) : Chronicle t scheme { commerce } := by
  have hNone : ∀ row : Publication, row ∉ ({ commerce } : Store).publications.rows := fun row => List.not_mem_nil
  refine ⟨?_, rfl, ?_, ?_, ?_, ?_, ?_⟩
  · exact fun row hRow => absurd hRow (hNone row)
  · exact fun row hRow => absurd hRow (hNone row)
  · exact fun row hRow => absurd hRow (hNone row)
  · exact fun row hRow => absurd hRow (hNone row)
  · exact fun row hRow => absurd hRow (hNone row)
  · intro receiptId status hStatus
    exact absurd (rowOf_eq_some.mp hStatus).1 List.not_mem_nil

namespace Chronicle

/-- The orders may move on, while those delivered stay so. -/
theorem withCommerce (chronicle : Chronicle t scheme store) {commerce : Commerce}
    (hIssued : ∀ orderId receiptId, store.commerce.Issued orderId receiptId → commerce.Issued orderId receiptId) :
    Chronicle t scheme { store with commerce } :=
  { chronicle with
    statuses := by
      intro receiptId status hStatus
      obtain ⟨repeats, hOrder⟩ := chronicle.statuses receiptId status hStatus
      exact ⟨repeats, hIssued _ _ hOrder⟩ }

/-- The sequences of the publications go from one to their number. -/
theorem sequence_le (chronicle : Chronicle t scheme store) {row : Publication} (hRow : row ∈ store.publications.rows) :
    row.sequence ≤ store.publications.rows.length := by
  have hSequence : row.sequence ∈ store.publications.rows.map Publication.sequence := List.mem_map_of_mem hRow
  rw [chronicle.sequences] at hSequence
  simp only [List.mem_map, List.mem_range] at hSequence
  obtain ⟨index, hIndex, hSame⟩ := hSequence
  omega

theorem sequence_injective (chronicle : Chronicle t scheme store) {first second : Publication}
    (hFirst : first ∈ store.publications.rows) (hSecond : second ∈ store.publications.rows)
    (hSame : first.sequence = second.sequence) : first = second := by
  apply List.inj_on_of_nodup_map _ hFirst hSecond hSame
  rw [chronicle.sequences]
  apply List.nodup_range.map
  intro left right h
  simpa using h

/-- The latest publication is the last one, when there is one. -/
theorem latest?_sequence (chronicle : Chronicle t scheme store) :
    (store.latest?.map Publication.sequence).getD 0 = store.publications.rows.length := by
  cases hLatest : store.latest? with
  | none =>
      rw [List.argmax_eq_none.mp hLatest]
      rfl
  | some latest =>
      have hMember : latest ∈ store.publications.rows := List.argmax_mem hLatest
      have hPositive : store.publications.rows.length ≠ 0 := by
        intro hEmpty
        rw [List.length_eq_zero_iff.mp hEmpty] at hMember
        cases hMember
      have hTop : (store.publications.rows.length : Int) ∈ store.publications.rows.map Publication.sequence := by
        rw [chronicle.sequences, List.mem_map]
        refine ⟨store.publications.rows.length - 1, List.mem_range.mpr (by omega), by omega⟩
      obtain ⟨top, hRow, hSequence⟩ := List.mem_map.mp hTop
      have hBelow : top.sequence ≤ latest.sequence := List.le_of_mem_argmax hRow hLatest
      have hAbove := chronicle.sequence_le hMember
      rw [Option.map_some, Option.getD_some]
      omega

/-- What the store says of a receipt is what any publication says that has ended it. -/
theorem state_of_terminal (chronicle : Chronicle t scheme store) {receiptId : String} {status : StatusRow}
    (hStatus : rowOf store.statuses receiptId = some status) {row : Publication} (hRow : row ∈ store.publications.rows)
    {state : ReceiptStatus × Option String} (gives : row.Gives receiptId state) (hTerminal : state.1 ≠ .current) :
    status.state = state := by
  obtain ⟨⟨⟨source, hSource, hSequence, hGives⟩, hLast⟩, -⟩ := chronicle.statuses receiptId status hStatus
  rcases lt_trichotomy row.sequence source.sequence with hBefore | hSame | hAfter
  · exact (chronicle.precedes row hRow source hSource hBefore).terminal receiptId state _ gives hTerminal hGives
  · obtain rfl := chronicle.sequence_injective hRow hSource hSame
    exact hGives.unique (chronicle.authentic row hRow).distinct gives
  · exact absurd gives (hLast row hRow (hSequence ▸ hAfter) state)

section
variable (chronicle : Chronicle t scheme store) (imported : Imported t submission orders store after)
include chronicle imported

theorem next_sequence : (publicationOf t submission).sequence = store.publications.rows.length + 1 := by
  rw [← chronicle.latest?_sequence]
  exact imported.sequence

/-- A publication goes on from every one before it. -/
theorem precedes_next {row : Publication} (hRow : row ∈ store.publications.rows) :
    row.Precedes (publicationOf t submission) := by
  constructor
  · have hRoot := chronicle.root row hRow
    rcases imported.bound with hNone | hBound
    · rw [hNone] at hRoot
      cases hRoot
    · exact Option.some.inj (hRoot.symm.trans hBound)
  · cases hLatest : store.latest? with
    | none =>
        rw [List.argmax_eq_none.mp hLatest] at hRow
        cases hRow
    | some latest =>
        have hKept := imported.issuers latest hLatest
        have hMember : latest ∈ store.publications.rows := List.argmax_mem hLatest
        have hBelow : row.sequence ≤ latest.sequence := List.le_of_mem_argmax hRow hLatest
        rcases hBelow.lt_or_eq with hLess | hSame
        · exact (chronicle.precedes row hRow latest hMember hLess).issuers.trans hKept
        · obtain rfl := chronicle.sequence_injective hRow hMember hSame
          exact hKept
  · rintro receiptId state other gives hTerminal ⟨record, hRecord, rfl, rfl⟩
    obtain ⟨status, hStatus⟩ := chronicle.listed row hRow _ _ gives
    have hState := chronicle.state_of_terminal hStatus hRow gives hTerminal
    rw [← hState]
    apply (imported.records record hRecord).terminal status hStatus
    intro hCurrent
    apply hTerminal
    rw [← hState]
    exact hCurrent

/-- A receipt that a publication ends has been published as current before. -/
theorem first_next {receiptId : String} {state : ReceiptStatus × Option String}
    (gives : (publicationOf t submission).Gives receiptId state) (hTerminal : state.1 ≠ .current) :
    ∃ earlier ∈ store.publications.rows, ∃ former, earlier.Gives receiptId former ∧ former.1 = .current := by
  obtain ⟨record, hRecord, rfl, rfl⟩ := gives
  have follows := imported.records record hRecord
  cases hStatus : rowOf store.statuses record.receiptId with
  | none => exact absurd (follows.first hStatus) hTerminal
  | some status =>
      obtain ⟨⟨⟨source, hSource, -, hGives⟩, -⟩, -⟩ := chronicle.statuses _ status hStatus
      by_cases hCurrent : status.status = .current
      · exact ⟨source, hSource, status.state, hGives, hCurrent⟩
      · obtain ⟨earlier, hEarlier, -, former, hFormer, hStart⟩ := chronicle.first source hSource _ _ hGives hCurrent
        exact ⟨earlier, hEarlier, former, hFormer, hStart⟩

/-- A publication is written under what it has been checked against. -/
theorem imported_keeps (authentic : (publicationOf t submission).Authentic t scheme)
    (hIssued : ∀ order ∈ orders, store.commerce.Issued order.orderId order.receiptId) : Chronicle t scheme after := by
  have hRows := imported.publications
  have hSequence := chronicle.next_sequence imported
  have hOld : ∀ row ∈ store.publications.rows, row.sequence < (publicationOf t submission).sequence := by
    intro row hRow
    have := chronicle.sequence_le hRow
    omega
  have hCases : ∀ row ∈ after.publications.rows, row ∈ store.publications.rows ∨ row = publicationOf t submission := by
    intro row hRow
    rw [hRows, List.mem_append, List.mem_singleton] at hRow
    exact hRow
  have hKept : ∀ row ∈ store.publications.rows, row ∈ after.publications.rows := by
    intro row hRow
    rw [hRows]
    exact List.mem_append_left _ hRow
  have hNew : publicationOf t submission ∈ after.publications.rows := by
    rw [hRows]
    exact List.mem_append_right _ (List.mem_singleton_self _)
  refine ⟨?_, ?_, ?_, ?_, ?_, ?_, ?_⟩
  · intro row hRow
    rcases hCases row hRow with hBefore | rfl
    · exact chronicle.authentic row hBefore
    · exact authentic
  · rw [hRows, List.map_append, List.length_append, chronicle.sequences, List.length_singleton, List.range_succ,
      List.map_append]
    simp [hSequence]
  · intro row hRow
    rw [imported.root]
    rcases hCases row hRow with hBefore | rfl
    · rw [(chronicle.precedes_next imported hBefore).root]
      rfl
    · rfl
  · intro earlier hEarlier later hLater hLess
    rcases hCases earlier hEarlier with hFirst | rfl
    · rcases hCases later hLater with hSecond | rfl
      · exact chronicle.precedes earlier hFirst later hSecond hLess
      · exact chronicle.precedes_next imported hFirst
    · rcases hCases later hLater with hSecond | rfl
      · exact absurd (hOld later hSecond) (by omega)
      · exact absurd hLess (lt_irrefl _)
  · intro row hRow receiptId state gives hTerminal
    rcases hCases row hRow with hBefore | rfl
    · obtain ⟨earlier, hEarlier, hLess, hFormer⟩ := chronicle.first row hBefore receiptId state gives hTerminal
      exact ⟨earlier, hKept earlier hEarlier, hLess, hFormer⟩
    · obtain ⟨earlier, hEarlier, hFormer⟩ := chronicle.first_next imported gives hTerminal
      exact ⟨earlier, hKept earlier hEarlier, hOld earlier hEarlier, hFormer⟩
  · intro row hRow receiptId state gives
    by_cases hListed : receiptId ∈ submission.feed.receipts.map Record.receiptId
    · obtain ⟨record, hRecord, rfl⟩ := List.mem_map.mp hListed
      obtain ⟨status, hStatus, -⟩ := imported.statuses.listed record hRecord
      exact ⟨status, hStatus⟩
    · rcases hCases row hRow with hBefore | rfl
      · rw [imported.statuses.others receiptId hListed]
        exact chronicle.listed row hBefore receiptId state gives
      · obtain ⟨record, hRecord, rfl, -⟩ := gives
        exact absurd (List.mem_map_of_mem hRecord) hListed
  · intro receiptId status hStatus
    rw [imported.commerce]
    by_cases hListed : receiptId ∈ submission.feed.receipts.map Record.receiptId
    · obtain ⟨record, hRecord, rfl⟩ := List.mem_map.mp hListed
      obtain ⟨found, hFound, rowFor⟩ := imported.statuses.listed record hRecord
      obtain rfl : found = status := Option.some.inj (hFound.symm.trans hStatus)
      refine ⟨⟨⟨_, hNew, rowFor.sequence.symm, record, hRecord, rfl, rowFor.state.symm⟩, ?_⟩, ?_⟩
      · intro row hRow hLater
        rw [rowFor.sequence] at hLater
        rcases hCases row hRow with hBefore | rfl
        · exact absurd (hOld row hBefore) (not_lt_of_gt hLater)
        · exact absurd hLater (lt_irrefl _)
      · rcases rowFor.order with ⟨old, hRow, hOrder⟩ | ⟨order, hOrder, hReceipt, hSame⟩
        · rw [hOrder]
          exact (chronicle.statuses _ old hRow).2
        · rw [hSame, ← hReceipt]
          exact hIssued order hOrder
    · rw [imported.statuses.others receiptId hListed] at hStatus
      obtain ⟨⟨⟨source, hSource, hGives⟩, hLast⟩, hOrder⟩ := chronicle.statuses receiptId status hStatus
      refine ⟨⟨⟨source, hKept source hSource, hGives⟩, ?_⟩, hOrder⟩
      intro row hRow hLater state gives
      rcases hCases row hRow with hBefore | rfl
      · exact hLast row hBefore hLater state gives
      · obtain ⟨record, hRecord, rfl, -⟩ := gives
        exact hListed (List.mem_map_of_mem hRecord)

end

end Chronicle

end

end Paid

end VouchSpec
