import VouchSpec.Catalog.Succession
import VouchSpec.Library.Loops
import VouchSpec.Paid.Draft
import VouchSpec.Paid.Import

/-! What the validator reads of a draft is what the draft was made of, and nothing in a
document that it accepts is nested deeper than its fields. -/

namespace VouchSpec

/-- An object whose members are plain. -/
theorem Json.plain_obj_of_get? {members : List (String × Json)} {depth : Nat} (hNames : (members.map Prod.fst).Nodup)
    (h : ∀ name ∈ members.map Prod.fst, ∀ value, (Json.obj members).get? name = some value → value.Plain depth) :
    (Json.obj members).Plain (depth + 1) := by
  refine ⟨hNames, fun member hMember => ?_⟩
  exact h member.1 (List.mem_map_of_mem hMember) member.2 ((Json.get?_obj_eq_some hNames).mpr hMember)

/-- A member that is not null is there. -/
theorem Json.get?_of_member {value found : Json} {name : String} (h : value.member name = found) (hFound : found ≠ .null) :
    value.get? name = some found := by
  unfold Json.member at h
  cases hGet : value.get? name with
  | none =>
      rw [hGet] at h
      exact absurd h.symm hFound
  | some inner =>
      rw [hGet] at h
      exact congrArg some h

theorem Json.eq_str_of_str? {value : Json} {text : String} (h : value.str? = some text) : value = .str text := by
  cases value with
  | str found => exact congrArg Json.str (Option.some.inj h)
  | _ => cases h

namespace Lifecycle

open Signing

section
variable {value : Json} {seen : List String} {record : Record}

/-- The status that is read has the members that it was read from. -/
theorem readStatus_source {status : String} {read : ReceiptStatus}
    (hKnown : status ∈ ["current", "superseded", "revoked_evaluator_defect", "revoked_key_compromise"])
    (h : readStatus value status = .ok read) :
    Paid.statusValue read = status ∧ value.get? "superseded_by" = (Paid.successor? read).map Json.str := by
  unfold readStatus at h
  split at h
  · next hStatus =>
      simp only [Except.bind_eq_ok_iff, Except.ofOption_eq_ok_iff, require_eq_ok, exists_const, Except.pure_eq_ok_iff] at h
      obtain ⟨successor, hSuccessor, -, rfl⟩ := h
      exact ⟨hStatus.symm, Json.get?_of_member (Json.eq_str_of_str? hSuccessor) (by simp)⟩
  · next hStatus =>
      simp only [Except.bind_eq_ok_iff, require_eq_ok, exists_const, Except.pure_eq_ok_iff, Option.isNone_iff_eq_none] at h
      obtain ⟨hAbsent, rfl⟩ := h
      simp only [List.mem_cons, List.not_mem_nil, or_false] at hKnown
      rcases hKnown with rfl | rfl | rfl | rfl
      · exact ⟨rfl, hAbsent⟩
      · exact absurd rfl hStatus
      · exact ⟨rfl, hAbsent⟩
      · exact ⟨rfl, hAbsent⟩

theorem readReason_source {reason : Option (Option String)} (h : readReason value = .ok reason) :
    value.get? "reason" = reason.map fun reason => (reason.map Json.str).getD .null := by
  unfold readReason at h
  split at h
  · next hGet =>
      cases h
      exact hGet
  · next hGet =>
      cases h
      exact hGet
  · next hGet =>
      simp only [Except.bind_eq_ok_iff, require_eq_ok, exists_const, Except.pure_eq_ok_iff] at h
      obtain ⟨-, rfl⟩ := h
      exact hGet
  · cases h

/-- A record that is read has the members that it was read from. -/
theorem readRecord_source (h : readRecord seen value = .ok record) :
    value.member "receipt_id" = .str record.receiptId ∧
      Paid.rawOf record.receiptId value = Paid.rawOfRecord record ∧ hasOnlyKnown value = true := by
  simp only [readRecord, Except.bind_eq_ok_iff, require_eq_ok, exists_const, Except.ofOption_eq_ok_iff,
    Except.pure_eq_ok_iff] at h
  obtain ⟨-, hOnly, receiptId, hId, -, known, hKnown, rfl, status, hStatus, read, hRead, reason, hReason, rfl⟩ := h
  have hText := Json.eq_str_of_str? hStatus
  rw [hText, inStrings, Except.ok.injEq, decide_eq_true_eq] at hKnown
  obtain ⟨hValue, hSuccessor⟩ := readStatus_source hKnown hRead
  refine ⟨Json.eq_str_of_str? hId, ?_, hOnly⟩
  simp only [Paid.rawOf, Paid.rawOfRecord, hSuccessor, readReason_source hReason, hValue,
    Json.get?_of_member hText (by simp)]

/-- A record that is accepted is an object of texts. -/
theorem plain_of_readRecord {depth : Nat} (hPlain : value.Plain depth) (h : readRecord seen value = .ok record) :
    value.Plain 1 := by
  obtain ⟨hId, hRaw, hOnly⟩ := readRecord_source h
  cases value with
  | obj members =>
      apply Json.plain_obj_of_get? hPlain.nodup
      intro name hName found hFound
      obtain ⟨member, hMember, rfl⟩ := List.mem_map.mp hName
      have hKnown := List.all_eq_true.mp hOnly member hMember
      simp only [List.mem_cons, List.not_mem_nil, or_false, decide_eq_true_eq] at hKnown
      simp only [Paid.rawOf, Paid.rawOfRecord, Paid.RawRecord.mk.injEq, true_and] at hRaw
      obtain ⟨hStatus, hSuccessor, hReason⟩ := hRaw
      rcases hKnown with hKnown | hKnown | hKnown | hKnown
      all_goals rw [hKnown] at hFound
      · rw [Json.get?_of_member hId (by simp)] at hFound
        exact Option.some.inj hFound ▸ Json.plain_str 0 _
      · rw [hStatus] at hFound
        exact Option.some.inj hFound ▸ Json.plain_str 0 _
      · rw [hSuccessor] at hFound
        obtain ⟨text, -, rfl⟩ := Option.map_eq_some_iff.mp hFound
        exact Json.plain_str 0 _
      · rw [hReason] at hFound
        obtain ⟨reason, -, rfl⟩ := Option.map_eq_some_iff.mp hFound
        cases reason with
        | none => exact Json.plain_null 0
        | some text => exact Json.plain_str 0 _
  | _ => cases hOnly

end

section
variable {t : Toolkit} {value : Json} {seen : List String}

theorem plain_of_readIssuer {depth : Nat} {issuer : Issuer} (hPlain : value.Plain depth)
    (h : readIssuer t seen value = .ok issuer) : value.Plain 2 := by
  simp only [readIssuer, Except.bind_eq_ok_iff, require_eq_ok, exists_const, Except.ofOption_eq_ok_iff,
    Except.pure_eq_ok_iff] at h
  obtain ⟨hMembers, known, hKnown, rfl, status, -, keyid, hThumbprint, ⟨hKeyid, -⟩, -⟩ := h
  cases value with
  | obj members =>
      apply Json.plain_obj_of_get? hPlain.nodup
      intro name hName found hFound
      obtain ⟨member, hMember, rfl⟩ := List.mem_map.mp hName
      simp only [Json.hasExactly, Bool.and_eq_true, List.all_eq_true, decide_eq_true_eq] at hMembers
      have hOne := hMembers.1 member hMember
      simp only [List.mem_cons, List.not_mem_nil, or_false] at hOne
      have hGiven : (Json.obj members).member member.1 = found := by
        rw [Json.member, hFound]
        rfl
      rcases hOne with hOne | hOne | hOne
      all_goals rw [hOne] at hGiven
      · rw [hKeyid] at hGiven
        exact hGiven ▸ Json.plain_str 1 _
      · obtain ⟨inner, hInner⟩ := hPlain.member "jwk"
        exact hGiven ▸ Catalog.plain_of_thumbprint hInner hThumbprint
      · rw [hGiven] at hKnown
        cases found with
        | str text => exact Json.plain_str 1 _
        | arr items => cases hKnown
        | obj inner => cases hKnown
        | null => exact Json.plain_null 1
        | bool flag => exact Json.plain_bool 1 flag
        | int number => simp [inStrings] at hKnown
  | _ => simp [Json.hasExactly] at hMembers

theorem plain_of_readIssuers {depth : Nat} {values : List Json} {issuers : List Issuer}
    (hPlain : ∀ value ∈ values, value.Plain depth) (h : readIssuers t seen values = .ok issuers) :
    ∀ value ∈ values, value.Plain 2 := by
  induction values generalizing seen issuers with
  | nil => exact fun value hValue => absurd hValue List.not_mem_nil
  | cons first rest ih =>
      simp only [readIssuers, Except.bind_eq_ok_iff, Except.pure_eq_ok_iff] at h
      obtain ⟨issuer, hIssuer, others, hOthers, rfl⟩ := h
      rw [List.forall_mem_cons] at hPlain ⊢
      exact ⟨plain_of_readIssuer hPlain.1 hIssuer, ih hPlain.2 hOthers⟩

end

end Lifecycle

namespace Paid

open Signing Lifecycle

section
variable {store : Store} {changes : List (String × Json)} {receipts : List String} {receiptId : String} {value : Json}

/-- A record that repeats a row. -/
theorem json_receiptId (row : StatusRow) : row.json.member "receipt_id" = .str row.receiptId := rfl

/-- The dict of a row is that of its record. -/
theorem rawOf_json (row : StatusRow) : rawOf row.receiptId row.json = rawOfRecord row.record := by
  unfold rawOf StatusRow.json rawOfRecord StatusRow.record
  cases successor? row.status <;> cases row.reason <;> simp [Json.get?]

theorem plain_json (row : StatusRow) : row.json.Plain 1 := by
  unfold StatusRow.json
  cases successor? row.status <;> cases row.reason <;> simp

theorem plain_keptRecord (receiptId : String) (prior : Option StatusRow) : (keptRecord receiptId prior).Plain 1 := by
  cases prior with
  | none => simp [keptRecord]
  | some row => exact plain_json row

/-- The record of a receipt is of it, and plain where the changes are. -/
theorem recordFor_eq_ok {prior : Option StatusRow} (hPrior : ∀ row ∈ prior, row.receiptId = receiptId)
    {change : Option Json} (hChange : ∀ value ∈ change, ∃ depth, value.Plain depth)
    (h : recordFor prior receiptId change = .ok value) :
    value.member "receipt_id" = .str receiptId ∧ ∃ depth, value.Plain depth := by
  cases change with
  | none =>
      obtain rfl := Except.ok.inj h
      refine ⟨?_, 1, plain_keptRecord _ _⟩
      cases prior with
      | none => rfl
      | some row => rw [keptRecord, json_receiptId, hPrior row rfl]
  | some change =>
      obtain ⟨depth, hPlain⟩ := hChange change rfl
      change changedRecord receiptId change = .ok value at h
      unfold changedRecord at h
      split at h
      · next members =>
          simp only [Except.bind_eq_ok_iff, require_eq_ok, exists_const, Except.pure_eq_ok_iff] at h
          obtain ⟨⟨-, hNames⟩, rfl⟩ := h
          refine ⟨rfl, ?_⟩
          cases depth with
          | zero => exact absurd hPlain (Json.not_plain_obj members)
          | succ depth =>
              refine ⟨depth + 1, ?_, ?_⟩
              · rw [List.map_cons, List.nodup_cons]
                refine ⟨?_, hPlain.1⟩
                intro hMember
                obtain ⟨member, hListed, hName⟩ := List.mem_map.mp hMember
                have hKnown := hNames member hListed
                rw [hName] at hKnown
                simp at hKnown
              · rw [List.forall_mem_cons]
                exact ⟨Json.plain_str depth receiptId, hPlain.2⟩
      · cases h

/-- A record is of its receipt, passes its transition, and is plain where the changes are. -/
theorem deriveRecord_eq_ok {depth : Nat} (hChanges : (Json.obj changes).Plain depth)
    (h : deriveRecord store changes receipts receiptId = .ok value) :
    (value.member "receipt_id" = .str receiptId ∧ ∃ inner, value.Plain inner) ∧
      recordFor (store.status? receiptId) receiptId (changeOf changes receiptId) = .ok value ∧
      validateTransition (store.status? receiptId) (rawOf receiptId value) receipts = .ok () := by
  simp only [deriveRecord, Except.bind_eq_ok_iff, Except.pure_eq_ok_iff] at h
  obtain ⟨record, hRecord, _, hAllowed, rfl⟩ := h
  refine ⟨recordFor_eq_ok ?_ ?_ hRecord, hRecord, hAllowed⟩
  · intro row hRow
    have hSame := List.find?_some hRow
    exact of_decide_eq_true hSame
  · intro change hChange
    have hFound : (Json.obj changes).get? receiptId = some change := by
      unfold changeOf at hChange
      split at hChange
      · cases hChange
      · exact hChange
    exact hChanges.get? hFound

/-- A drafted record repeats what is stored of its receipt, or its change, and is allowed. -/
structure Drafted (store : Store) (changes : List (String × Json)) (receipts : List String) (receiptId : String)
    (record : Record) : Prop where
  named : record.receiptId = receiptId
  source : ∃ value, recordFor (store.status? receiptId) receiptId (changeOf changes receiptId) = .ok value ∧
    rawOf receiptId value = rawOfRecord record
  allowed : validateTransition (store.status? receiptId) (rawOfRecord record) receipts = .ok ()

theorem drafted_of_read {depth : Nat} (hChanges : (Json.obj changes).Plain depth) {ids : List String}
    {values : List Json} (hDerived : List.Forall₂ (fun receiptId value =>
      deriveRecord store changes receipts receiptId = .ok value) ids values) {seen : List String} {records : List Record}
    (hRead : readRecords seen values = .ok records) :
    List.Forall₂ (Drafted store changes receipts) ids records ∧ ∀ value ∈ values, value.Plain 1 := by
  induction hDerived generalizing seen records with
  | nil =>
      cases hRead
      exact ⟨.nil, fun value hValue => absurd hValue List.not_mem_nil⟩
  | cons hFirst _ ih =>
      simp only [readRecords, Except.bind_eq_ok_iff, Except.pure_eq_ok_iff] at hRead
      obtain ⟨first, hHead, others, hOthers, rfl⟩ := hRead
      obtain ⟨hDrafted, hPlains⟩ := ih hOthers
      obtain ⟨⟨hId, _, hPlain⟩, hRecord, hAllowed⟩ := deriveRecord_eq_ok hChanges hFirst
      obtain ⟨hSource, hRaw, -⟩ := readRecord_source hHead
      have hSame := Json.str.inj (hSource.symm.trans hId)
      rw [hSame] at hRaw
      rw [hRaw] at hAllowed
      rw [List.forall_mem_cons]
      exact ⟨.cons ⟨hSame, ⟨_, hRecord, hRaw⟩, hAllowed⟩ hDrafted, plain_of_readRecord hPlain hHead, hPlains⟩

end

/-- What a draft says of a receipt. -/
theorem Drafted.kept {store : Store} {changes : List (String × Json)} {receipts : List String} {receiptId : String}
    {record : Record} (drafted : Drafted store changes receipts receiptId record) (hChange : changeOf changes receiptId = none)
    {row : StatusRow} (hRow : store.status? receiptId = some row) : record.state = row.state := by
  obtain ⟨value, hValue, hRaw⟩ := drafted.source
  rw [hChange, hRow] at hValue
  obtain rfl := Except.ok.inj hValue
  have hId := List.find?_some hRow
  obtain rfl : row.receiptId = receiptId := of_decide_eq_true hId
  obtain rfl := rawOfRecord_injective (hRaw.symm.trans (rawOf_json row))
  cases hReason : row.reason <;> simp [Record.state, StatusRow.state, StatusRow.record, hReason]

theorem Drafted.new {store : Store} {changes : List (String × Json)} {receipts : List String} {receiptId : String}
    {record : Record} (drafted : Drafted store changes receipts receiptId record) (hChange : changeOf changes receiptId = none)
    (hRow : store.status? receiptId = none) : record.state = (.current, none) := by
  obtain ⟨value, hValue, hRaw⟩ := drafted.source
  rw [hChange, hRow] at hValue
  obtain rfl := Except.ok.inj hValue
  have hSame : rawOf receiptId (keptRecord receiptId none) = rawOfRecord ⟨receiptId, .current, none⟩ := rfl
  obtain rfl := rawOfRecord_injective (hRaw.symm.trans hSame)
  rfl

theorem Drafted.changed {store : Store} {changes : List (String × Json)} {receipts : List String} {receiptId : String}
    {record : Record} (drafted : Drafted store changes receipts receiptId record) {change : Json}
    (hChange : changeOf changes receiptId = some change) :
    change.get? "status" = some (.str (statusValue record.status)) := by
  obtain ⟨value, hValue, hRaw⟩ := drafted.source
  rw [hChange] at hValue
  change changedRecord receiptId change = .ok value at hValue
  unfold changedRecord at hValue
  split at hValue
  · simp only [Except.bind_eq_ok_iff, require_eq_ok, exists_const, Except.pure_eq_ok_iff] at hValue
    obtain ⟨-, rfl⟩ := hValue
    exact congrArg RawRecord.status hRaw
  · cases hValue

theorem mem_receiptsOf {orders : List Delivered} {receiptId : String} :
    receiptId ∈ receiptsOf orders ↔ receiptId ∈ orders.map Delivered.receiptId := by
  rw [receiptsOf, (List.perm_sortBy _ _).mem_iff, List.mem_dedup]

section
variable {t : Toolkit} {store : Store} {changes : List (String × Json)} {issuerKeys : Json} {generatedAt expiresAt : Int}
  {orders : List Delivered} {draft : Bytes}

/-- A formatted time that the validator accepts is the time, to the second. -/
theorem time_timestamp {instant read : Int} {text field : String}
    (h : time t (.str (t.timestamp instant)) field = .ok (text, read)) : read = instant / 1000000 * 1000000 := by
  simp only [time, Except.bind_eq_ok_iff, Except.ofOption_eq_ok_iff, require_eq_ok, exists_const] at h
  obtain ⟨found, hFound, -, h⟩ := h
  obtain rfl : t.timestamp instant = found := Option.some.inj hFound
  rw [Platform.timestamp, Platform.normalized_append_z, t.fromisoformat_isoformat] at h
  exact (Prod.mk.inj (Except.ok.inj h)).2.symm

/-- A draft, and what the validator reads of it. -/
structure Prepared (t : Toolkit) (generatedAt expiresAt : Int) (changes : List (String × Json)) (orders : List Delivered)
    (store : Store) (value : Json) (feed : Feed) : Prop where
  plain : value.Plain readableDepth
  valid : validateLifecycleFeed t value = .ok feed
  sequence : feed.sequence = (store.latest?.map Publication.sequence).getD 0 + 1
  generated : feed.generated = generatedAt / 1000000 * 1000000
  expires : feed.expires = expiresAt / 1000000 * 1000000
  coverage : validateIssuerCoverage feed orders = .ok ()
  transitions : validateIssuerTransitions feed (store.latest?.map Publication.feed) = .ok ()
  known : ∀ change ∈ changes, change.1 ∈ orders.map Delivered.receiptId
  records : List.Forall₂ (Drafted store changes (orders.map Delivered.receiptId)) (receiptsOf orders) feed.receipts

theorem prepared_of_draft {depth inner : Nat} (hIssuers : issuerKeys.Plain depth) (hChanges : (Json.obj changes).Plain inner)
    (h : draftOf t issuerKeys generatedAt expiresAt changes orders store = .ok draft) :
    ∃ value feed, draft = deterministicJson value ∧ Prepared t generatedAt expiresAt changes orders store value feed := by
  simp only [draftOf, Except.bind_eq_ok_iff, require_eq_ok, exists_const, Except.pure_eq_ok_iff] at h
  obtain ⟨records, hRecords, feed, hValid, _, hCoverage, _, hTransitions, hDigits, rfl⟩ := h
  refine ⟨_, feed, rfl, ?_⟩
  simp only [deriveRecords, Except.bind_eq_ok_iff, require_eq_ok, exists_const] at hRecords
  obtain ⟨hKnown, hDerived⟩ := hRecords
  have hParts := hValid
  simp only [validateLifecycleFeed, Except.bind_eq_ok_iff, require_eq_ok, exists_const, Except.pure_eq_ok_iff,
    Except.ofOption_eq_ok_iff, Prod.exists] at hParts
  obtain ⟨-, -, sequence, hSequence, -, generatedText, generated, hGenerated, expiresText, expires, hExpires, -, issuers,
    hIssuerItems, readIssuers, hReadIssuers, items, hItems, read, hRead, hFeed⟩ := hParts
  have hIssuerList := Catalog.boundedItems_eq_ok hIssuerItems
  have hItemList := Json.arr.inj (Catalog.boundedItems_eq_ok hItems)
  obtain ⟨hDrafted, hPlains⟩ := drafted_of_read hChanges (Except.forall₂_of_mapM hDerived) (hItemList ▸ hRead)
  have hIssuersPlain : issuerKeys.Plain 3 := by
    change issuerKeys = .arr issuers at hIssuerList
    rw [hIssuerList] at hIssuers ⊢
    cases depth with
    | zero => exact absurd hIssuers (Json.not_plain_arr issuers)
    | succ depth => exact plain_of_readIssuers hIssuers hReadIssuers
  constructor
  · have hRecordsPlain : (Json.arr records).Plain 31 :=
      (show (Json.arr records).Plain 2 from hPlains).mono (by decide)
    have hKeys : issuerKeys.Plain 31 := hIssuersPlain.mono (by decide)
    simp [draftFeed, readableDepth, hDigits, hKeys, hRecordsPlain]
  · exact hValid
  · rw [← hFeed]
    exact (Option.some.inj hSequence).symm
  · rw [← hFeed]
    exact time_timestamp hGenerated
  · rw [← hFeed]
    exact time_timestamp hExpires
  · exact hCoverage
  · exact hTransitions
  · exact hKnown
  · rw [← hFeed]
    exact hDrafted

end

end Paid

end VouchSpec
