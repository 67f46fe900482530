import VouchSpec.Library.Loops
import VouchSpec.Lifecycle.Verdict
import VouchSpec.Paid.Store

/-! What a publication that is written has passed, and what it leaves in the tables. -/

namespace VouchSpec

/-- The status of a record with its reason, where an absent one and null are the same. -/
def Lifecycle.Record.state (record : Lifecycle.Record) : Lifecycle.ReceiptStatus × Option String :=
  (record.status, record.reason.join)

namespace Paid

open Signing Lifecycle

def StatusRow.state (row : StatusRow) : ReceiptStatus × Option String := (row.status, row.reason)

theorem status_eq_of_raw {left right : ReceiptStatus} (hValue : statusValue left = statusValue right)
    (hSuccessor : successor? left = successor? right) : left = right := by
  cases left <;> cases right <;> simp_all [statusValue, successor?]

/-- A dict of a record has all that the record has. -/
theorem rawOfRecord_injective : Function.Injective rawOfRecord := by
  rintro ⟨receiptId, status, reason⟩ ⟨otherId, otherStatus, otherReason⟩ hSame
  simp only [rawOfRecord, RawRecord.mk.injEq, Option.some.injEq, Json.str.injEq] at hSame
  obtain ⟨rfl, hValue, hSuccessor, hReason⟩ := hSame
  have hSuccessors : successor? status = successor? otherStatus :=
    Option.map_injective (fun _ _ h => Json.str.inj h) hSuccessor
  obtain rfl := status_eq_of_raw hValue hSuccessors
  have hReasons : reason = otherReason := by
    refine Option.map_injective (fun first second h => ?_) hReason
    cases first <;> cases second <;> simp_all
  rw [hReasons]

/-- What the transition of a record says of it. -/
structure Follows (prior : Option StatusRow) (record : Record) : Prop where
  first : prior = none → record.status = .current
  terminal : ∀ row, prior = some row → row.status ≠ .current → record.state = row.state

theorem statusValue_eq_current {status : ReceiptStatus} : statusValue status = "current" ↔ status = .current := by
  cases status <;> simp [statusValue]

theorem follows_of_transition {prior : Option StatusRow} {record : Record} {deliveredReceipts : List String}
    (h : validateTransition prior (rawOfRecord record) deliveredReceipts = .ok ()) : Follows prior record := by
  simp only [validateTransition, Except.bind_eq_ok_iff, require_eq_ok, exists_const, Except.ofOption_eq_ok_iff] at h
  obtain ⟨_, -, -, status, hStatus, _, -, hPrior⟩ := h
  obtain rfl : statusValue record.status = status := Option.some.inj hStatus
  constructor
  · rintro rfl
    exact statusValue_eq_current.mp (require_eq_ok.mp hPrior)
  · rintro row rfl hTerminal
    simp only [Except.bind_eq_ok_iff, require_eq_ok, exists_const] at hPrior
    obtain rfl := rawOfRecord_injective (hPrior.1.resolve_left hTerminal)
    cases hReason : row.reason <;> simp [Record.state, StatusRow.state, StatusRow.record, hReason]

/-- What the later feed keeps of the issuers of the earlier one. -/
structure IssuersKept (earlier later : Feed) : Prop where
  listed : ∀ issuer ∈ earlier.issuerKeys, ∃ other ∈ later.issuerKeys, other.keyid = issuer.keyid
  compromised : ∀ issuer ∈ earlier.issuerKeys, issuer.status = .compromised →
    ∀ other ∈ later.issuerKeys, other.keyid = issuer.keyid → other.status = .compromised
  retired : ∀ issuer ∈ earlier.issuerKeys, issuer.status = .retired →
    ∀ other ∈ later.issuerKeys, other.keyid = issuer.keyid → other.status ≠ .active

theorem issuersKept_of_transitions {feed prior : Feed} (distinct : feed.Distinct)
    (h : validateIssuerTransitions feed (some prior) = .ok ()) : IssuersKept prior feed := by
  simp only [validateIssuerTransitions, Except.bind_eq_ok_iff, require_eq_ok, exists_const,
    Except.forM_eq_ok_iff] at h
  obtain ⟨hListed, hEach⟩ := h
  have hIssuer : ∀ issuer ∈ prior.issuerKeys, ∀ other ∈ feed.issuerKeys, other.keyid = issuer.keyid →
      ¬(issuer.status = .compromised ∧ other.status ≠ .compromised) ∧
        ¬(issuer.status = .retired ∧ other.status = .active) := by
    intro issuer hMember other hOther hKeyid
    have hChecked := hEach issuer hMember
    simp only [validateIssuerTransition, Except.bind_eq_ok_iff, require_eq_ok, exists_const,
      Except.ofOption_eq_ok_iff] at hChecked
    obtain ⟨found, hFound, hCompromised, hRetired⟩ := hChecked
    obtain rfl : found = other :=
      Option.some.inj (hFound.symm.trans (distinct.issuer?_eq_some.mpr ⟨hOther, hKeyid⟩))
    exact ⟨hCompromised, hRetired⟩
  constructor
  · intro issuer hMember
    obtain ⟨other, hOther, hKeyid⟩ := List.mem_map.mp (hListed issuer hMember)
    exact ⟨other, hOther, hKeyid⟩
  · intro issuer hMember hStatus other hOther hKeyid
    by_contra hNot
    exact (hIssuer issuer hMember other hOther hKeyid).1 ⟨hStatus, hNot⟩
  · intro issuer hMember hStatus other hOther hKeyid hActive
    exact (hIssuer issuer hMember other hOther hKeyid).2 ⟨hStatus, hActive⟩

theorem IssuersKept.trans {first second third : Feed} (left : IssuersKept first second)
    (right : IssuersKept second third) : IssuersKept first third := by
  refine ⟨?_, ?_, ?_⟩
  · intro issuer hIssuer
    obtain ⟨middle, hMiddle, hSame⟩ := left.listed issuer hIssuer
    obtain ⟨last, hLast, hKeyid⟩ := right.listed middle hMiddle
    exact ⟨last, hLast, hKeyid.trans hSame⟩
  · intro issuer hIssuer hStatus last hLast hKeyid
    obtain ⟨middle, hMiddle, hSame⟩ := left.listed issuer hIssuer
    have hCompromised := left.compromised issuer hIssuer hStatus middle hMiddle hSame
    exact right.compromised middle hMiddle hCompromised last hLast (hKeyid.trans hSame.symm)
  · intro issuer hIssuer hStatus last hLast hKeyid hActive
    obtain ⟨middle, hMiddle, hSame⟩ := left.listed issuer hIssuer
    have hNotActive := left.retired issuer hIssuer hStatus middle hMiddle hSame
    cases hMiddleStatus : middle.status with
    | active => exact hNotActive hMiddleStatus
    | retired => exact right.retired middle hMiddle hMiddleStatus last hLast (hKeyid.trans hSame.symm) hActive
    | compromised =>
        have hLastStatus := right.compromised middle hMiddle hMiddleStatus last hLast (hKeyid.trans hSame.symm)
        rw [hActive] at hLastStatus
        cases hLastStatus

/-- The row of a receipt in the table of the statuses. -/
def rowOf (statuses : Table StatusRow.keys Access.EitherSame) (receiptId : String) : Option StatusRow :=
  statuses.find? fun row => row.receiptId = receiptId

theorem rowOf_eq_some {statuses : Table StatusRow.keys Access.EitherSame} {receiptId : String} {row : StatusRow} :
    rowOf statuses receiptId = some row ↔ row ∈ statuses.rows ∧ row.receiptId = receiptId := by
  unfold rowOf
  rw [Table.find?_eq_some]
  · simp
  · intro first second hFirst hSecond
    exact Or.inl ((of_decide_eq_true hFirst).trans (of_decide_eq_true hSecond).symm)

/-- The row of a receipt repeats a record, under the order that it had or is given. -/
structure RowFor (orders : List Delivered) (sequence : Int) (before : Table StatusRow.keys Access.EitherSame)
    (record : Record) (row : StatusRow) : Prop where
  receiptId : row.receiptId = record.receiptId
  state : row.state = record.state
  sequence : row.sequence = sequence
  order : (∃ old, rowOf before record.receiptId = some old ∧ row.orderId = old.orderId) ∨
    ∃ order ∈ orders, order.receiptId = record.receiptId ∧ row.orderId = order.orderId

/-- A row when its receipt's record is written over it. -/
def renewed (record : Record) (sequence : Int) (updatedAt : String) (old : StatusRow) : StatusRow :=
  if old.receiptId = record.receiptId then
    { old with status := record.status, reason := record.reason.join, sequence, updatedAt }
  else old

theorem rowOf_renewed {statuses : Table StatusRow.keys Access.EitherSame} {record : Record} {sequence : Int}
    {updatedAt receiptId : String} :
    rowOf (statuses.update (fun old => old.receiptId = record.receiptId)
      (fun old => { old with status := record.status, reason := record.reason.join, sequence, updatedAt })
      fun _ => rfl) receiptId = (rowOf statuses receiptId).map (renewed record sequence updatedAt) := by
  have hChanged := @Table.find?_changed StatusRow statuses.rows (fun old => old.receiptId = receiptId)
    (fun old => old.receiptId = record.receiptId)
    (fun old => { old with status := record.status, reason := record.reason.join, sequence, updatedAt })
    fun _ _ => rfl
  simp only [decide_eq_true_eq] at hChanged
  exact hChanged

theorem upsert_rowOf {orders : List Delivered} {sequence : Int} {updatedAt : String}
    {statuses after : Table StatusRow.keys Access.EitherSame} {record : Record} {order : Delivered}
    (hOrder : order ∈ orders) (hReceipt : order.receiptId = record.receiptId)
    (h : Store.upsert statuses { receiptId := record.receiptId, orderId := order.orderId, status := record.status
                                 reason := record.reason.join, sequence, updatedAt } = some after) :
    (∃ row, rowOf after record.receiptId = some row ∧ RowFor orders sequence statuses record row) ∧
      ∀ receiptId, receiptId ≠ record.receiptId → rowOf after receiptId = rowOf statuses receiptId := by
  unfold Store.upsert at h
  split at h
  · next hThere =>
      obtain ⟨old, hOld⟩ := Option.isSome_iff_exists.mp hThere
      have hFound : rowOf statuses record.receiptId = some old := hOld
      have hId := (rowOf_eq_some.mp hFound).2
      obtain rfl := Option.some.inj h
      have hLookup : ∀ receiptId, rowOf _ receiptId = (rowOf statuses receiptId).map (renewed record sequence updatedAt) :=
        fun receiptId => rowOf_renewed
      constructor
      · refine ⟨renewed record sequence updatedAt old, (hLookup record.receiptId).trans ?_, ?_⟩
        · rw [hFound, Option.map_some]
        rw [renewed, if_pos hId]
        exact ⟨hId, rfl, rfl, Or.inl ⟨old, hFound, rfl⟩⟩
      · intro receiptId hOther
        refine (hLookup receiptId).trans ((Option.map_congr fun row hRow => ?_).trans Option.map_id')
        rw [renewed, if_neg]
        rw [(rowOf_eq_some.mp hRow).2]
        exact hOther
  · next hAbsent =>
      have hRows := (Table.insert?_eq_some.mp h).2
      have hNone : rowOf statuses record.receiptId = none := Option.not_isSome_iff_eq_none.mp hAbsent
      have hLookup : ∀ receiptId, rowOf after receiptId = (rowOf statuses receiptId).or _ :=
        fun receiptId => Table.find?_append_of_none hRows
      constructor
      · refine ⟨StatusRow.mk record.receiptId order.orderId record.status record.reason.join sequence updatedAt,
          (hLookup record.receiptId).trans ?_, rfl, rfl, rfl, Or.inr ⟨order, hOrder, hReceipt, rfl⟩⟩
        rw [hNone]
        simp
      · intro receiptId hOther
        refine (hLookup receiptId).trans ?_
        rw [if_neg (by simpa using hOther.symm), Option.or_none]

/-- What the records of a publication leave in the table of the statuses. -/
structure Applied (orders : List Delivered) (sequence : Int) (records : List Record)
    (before after : Table StatusRow.keys Access.EitherSame) : Prop where
  listed : ∀ record ∈ records, ∃ row, rowOf after record.receiptId = some row ∧
    RowFor orders sequence before record row
  others : ∀ receiptId, receiptId ∉ records.map Record.receiptId → rowOf after receiptId = rowOf before receiptId

theorem orderOf_eq_ok {orders : List Delivered} {receiptId : String} {order : Delivered}
    (h : orderOf orders receiptId = .ok order) : order ∈ orders ∧ order.receiptId = receiptId := by
  have hFound := Except.ofOption_eq_ok_iff.mp h
  have hReceipt := List.find?_some hFound
  exact ⟨List.mem_of_find?_eq_some hFound, of_decide_eq_true hReceipt⟩

theorem applied_of_records {orders : List Delivered} {sequence : Int} {updatedAt : String} {records : List Record}
    {before after : Table StatusRow.keys Access.EitherSame} (hNodup : (records.map Record.receiptId).Nodup)
    (h : applyRecords orders sequence updatedAt records before = .ok after) :
    Applied orders sequence records before after := by
  induction records generalizing before with
  | nil =>
      obtain rfl := Except.ok.inj h
      exact ⟨fun _ hRecord => absurd hRecord List.not_mem_nil, fun _ _ => rfl⟩
  | cons record rest ih =>
      simp only [applyRecords, Except.bind_eq_ok_iff, Except.ofOption_eq_ok_iff] at h
      obtain ⟨order, hOrder, middle, hUpsert, hRest⟩ := h
      rw [List.map_cons, List.nodup_cons] at hNodup
      obtain ⟨hMember, hReceipt⟩ := orderOf_eq_ok hOrder
      obtain ⟨⟨row, hRow, rowFor⟩, hOthers⟩ := upsert_rowOf hMember hReceipt hUpsert
      have applied := ih hNodup.2 hRest
      constructor
      · intro listed hListed
        rcases List.mem_cons.mp hListed with rfl | hLater
        · exact ⟨row, (applied.others _ hNodup.1).trans hRow, rowFor⟩
        · have hApart : listed.receiptId ≠ record.receiptId := by
            intro hSame
            exact hNodup.1 (hSame ▸ List.mem_map_of_mem hLater)
          obtain ⟨other, hOther, hFor⟩ := applied.listed listed hLater
          refine ⟨other, hOther, hFor.receiptId, hFor.state, hFor.sequence, ?_⟩
          rw [← hOthers listed.receiptId hApart]
          exact hFor.order
      · intro receiptId hAbsent
        rw [List.map_cons, List.mem_cons, not_or] at hAbsent
        rw [applied.others receiptId hAbsent.2, hOthers receiptId hAbsent.1]

section
variable {t : Toolkit} {submission : Submission} {orders : List Delivered} {store after : Store}
  {view : PublicationView}

/-- The row that a publication adds. -/
def publicationOf (t : Toolkit) (submission : Submission) : Publication :=
  { sequence := submission.feed.sequence, rootKeyid := submission.rootKeyid
    payloadSha256 := submission.payloadSha256, feed := submission.feed
    envelopeBody := submission.envelopeBody, generatedAt := submission.feed.generatedAt
    expiresAt := submission.feed.expiresAt, publishedAt := t.timestamp submission.observed }

/-- A publication that is written. -/
structure Imported (t : Toolkit) (submission : Submission) (orders : List Delivered) (store after : Store) : Prop where
  commerce : after.commerce = store.commerce
  bound : store.rootKeyid = none ∨ store.rootKeyid = some submission.rootKeyid
  root : after.rootKeyid = some submission.rootKeyid
  sequence : submission.feed.sequence = (store.latest?.map Publication.sequence).getD 0 + 1
  issuers : ∀ row, store.latest? = some row → IssuersKept row.feed submission.feed
  records : ∀ record ∈ submission.feed.receipts, Follows (rowOf store.statuses record.receiptId) record
  publications : after.publications.rows = store.publications.rows ++ [publicationOf t submission]
  statuses : Applied orders submission.feed.sequence submission.feed.receipts store.statuses after.statuses

/-- The write transaction finds the publication stored, or writes it. -/
theorem importFeed_cases (distinct : submission.feed.Distinct)
    (h : importFeed t submission orders store = .ok (after, view)) :
    after = store ∨ Imported t submission orders store after := by
  simp only [importFeed, Except.bind_eq_ok_iff, require_eq_ok, exists_const] at h
  obtain ⟨hRoot, -, h⟩ := h
  split at h
  · simp only [Except.bind_eq_ok_iff, require_eq_ok, exists_const, Except.pure_eq_ok_iff, Prod.mk.injEq] at h
    obtain ⟨-, _, -, rfl, -⟩ := h
    exact Or.inl rfl
  simp only [Except.bind_eq_ok_iff, require_eq_ok, exists_const, Except.pure_eq_ok_iff, Prod.mk.injEq,
    Except.ofOption_eq_ok_iff] at h
  obtain ⟨hSequence, _, hIssuers, _, hRecords, publications, hInsert, statuses, hApplied, _, -, rfl, -⟩ := h
  refine Or.inr ⟨rfl, hRoot, rfl, hSequence, ?_, ?_, (Table.insert?_eq_some.mp hInsert).2,
    applied_of_records distinct.receiptIds hApplied⟩
  · intro row hRow
    rw [hRow] at hIssuers
    exact issuersKept_of_transitions distinct hIssuers
  · intro record hRecord
    exact follows_of_transition (Except.forM_eq_ok_iff.mp hRecords record hRecord)

end

end Paid

end VouchSpec
