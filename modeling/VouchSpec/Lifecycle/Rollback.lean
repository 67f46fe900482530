import VouchSpec.Lifecycle.Marks
import VouchSpec.Signing.Separation
import VouchSpec.Lifecycle.Canonical

/-! Evaluations that share one store, in any interleaving of their reads and
records: the marks only rise, and no result is based on a feed below, or beside,
one that a result has been based on before. -/

namespace VouchSpec

namespace Lifecycle

open Signing Program

/-- No mark of the file falls. -/
def Rises (t : Toolkit) (before after : Disk) : Prop :=
  ∀ keyid, Watermark.Below (recorded? t before.file keyid) (recorded? t after.file keyid)

section
variable {t : Toolkit}

theorem Rises.refl (disk : Disk) : Rises t disk disk := fun _ => Watermark.Below.refl _

theorem Rises.trans {first second third : Disk} (hFirst : Rises t first second) (hSecond : Rises t second third) :
    Rises t first third := fun keyid => (hFirst keyid).trans (hSecond keyid)

theorem Rises.of_file {before after : Disk} (hFile : after.file = before.file) : Rises t before after := by
  intro keyid
  rw [hFile]
  exact Watermark.Below.refl _

/-- A stored mark is positive. -/
theorem recorded?_positive {file : Option Bytes} {keyid : String} {mark : Mark}
    (hMark : recorded? t file keyid = some mark) : 1 ≤ mark.sequence := by
  simp only [recorded?, bind, Option.bind_eq_some_iff] at hMark
  obtain ⟨bytes, -, value, -, entry, -, hRead⟩ := hMark
  cases hOutcome : readMark (isFirstVersion (value.member "schema_version")) entry with
  | error error => simp [hOutcome, Except.toOption] at hRead
  | ok found =>
      obtain rfl : found = mark := by simpa [hOutcome, Except.toOption] using hRead
      exact (readMark_sound hOutcome).positive

/-- A rising mark is a rising sequence. -/
theorem Rises.recordedSequence {before after : Disk} (hRises : Rises t before after) (keyid : String) :
    recordedSequence t before.file keyid ≤ recordedSequence t after.file keyid := by
  have hBelow := hRises keyid
  unfold Lifecycle.recordedSequence
  cases hBefore : recorded? t before.file keyid with
  | none =>
      cases hAfter : recorded? t after.file keyid with
      | none => exact le_refl _
      | some mark =>
          have hPositive := recorded?_positive hAfter
          show 0 ≤ mark.sequence
          omega
  | some earlier =>
      rw [hBefore] at hBelow
      obtain ⟨mark, hAfter, hLe⟩ := Watermark.below_some.mp hBelow
      rw [hAfter]
      exact Watermark.le_sequence hLe

theorem Records.rises {keyid : String} {sequence : Int} {digest : String} {before after : Disk}
    (hRecords : Records t keyid sequence digest before.file after.file) : Rises t before after := by
  intro other
  by_cases hSame : other = keyid
  · rw [hSame, hRecords.self]
    cases hMark : recorded? t before.file keyid with
    | none => trivial
    | some mark => exact Watermark.le_of_admits (hRecords.admits mark hMark)
  · rw [hRecords.others other hSame]
    exact Watermark.Below.refl _

/-- The minimum is the recorded sequence. -/
theorem minimum_eq_ok {file : Option Bytes} {trustedRootJwk : Json} {result : Int} {keyid : String}
    (hKeyid : jwkThumbprint t trustedRootJwk = .ok keyid) (hMinimum : minimum t file trustedRootJwk = .ok result) :
    result = recordedSequence t file keyid := by
  simp only [minimum, Except.bind_eq_ok_iff, Except.pure_eq_ok_iff, hKeyid, Except.ok.injEq,
    exists_eq_left'] at hMinimum
  obtain ⟨roots, hLoad, rfl⟩ := hMinimum
  rw [recordedSequence, (load_eq_ok hLoad).2.2 keyid]

end

section
variable {Key : Type} {t : Toolkit} {scheme : Ed25519 Key} {schema : Signing.Schema}

theorem validateLifecycleFeed_positive {value : Json} {feed : Feed}
    (hFeed : validateLifecycleFeed t value = .ok feed) : 1 ≤ feed.sequence := by
  simp only [validateLifecycleFeed, Except.bind_eq_ok_iff, require_eq_ok, exists_const,
    Except.pure_eq_ok_iff] at hFeed
  obtain ⟨-, -, sequence, -, hPositive, -, -, -, -, -, -, -, -, -, -, -, -, -, rfl⟩ := hFeed
  exact hPositive

theorem verifyLifecycleEnvelope_eq_ok {envelope : Bytes} {trustedRootJwk : Json} {feed : Feed} {payload : Bytes}
    (hVerified : verifyLifecycleEnvelope t scheme envelope trustedRootJwk = .ok (feed, payload)) :
    (∃ keyid, jwkThumbprint t trustedRootJwk = .ok keyid) ∧ 1 ≤ feed.sequence := by
  simp only [verifyLifecycleEnvelope, Except.bind_eq_ok_iff, Except.pure_eq_ok_iff, Prod.mk.injEq] at hVerified
  obtain ⟨_, hPayload, value, -, _, hFeed, rfl, rfl⟩ := hVerified
  obtain ⟨keyid, _, _, _, -, hThumbprint, -⟩ := verifyDsseEnvelope_eq_ok hPayload
  exact ⟨⟨keyid, hThumbprint⟩, validateLifecycleFeed_positive hFeed⟩

theorem evaluateUnder_eq_ok {feed : Feed} {receiptEnvelope : Bytes} {now minimum : Int} {result : Evaluation}
    (hResult : evaluateUnder t scheme schema feed receiptEnvelope now minimum = .ok result) :
    result.feedSequence = feed.sequence ∧
      (feed.sequence < minimum → result.lifecycle = .signatureValidLifecycleUnknown) := by
  simp only [evaluateUnder, Except.bind_eq_ok_iff] at hResult
  obtain ⟨keyid, -, issuer, -, ⟨receipt, payload⟩, -, receiptId, -, hRest⟩ := hResult
  split at hRest
  · obtain rfl := Except.ok.inj hRest
    exact ⟨rfl, fun _ => rfl⟩
  · next hLow =>
      refine ⟨?_, fun hBelow => absurd hBelow hLow⟩
      split at hRest
      · exact Except.ok.inj hRest ▸ rfl
      · split at hRest
        · exact Except.ok.inj hRest ▸ rfl
        · simp only [Except.bind_eq_ok_iff, Except.pure_eq_ok_iff, Prod.exists] at hRest
          obtain ⟨state, reason, -, _, -, _, -, _, -, _, -, _, -, rfl⟩ := hRest
          rfl

theorem evaluateReceiptLifecycle_eq_ok {receiptEnvelope lifecycleEnvelope payload : Bytes} {trustedRootJwk : Json}
    {now minimum : Int} {feed : Feed} {result : Evaluation}
    (hVerified : verifyLifecycleEnvelope t scheme lifecycleEnvelope trustedRootJwk = .ok (feed, payload))
    (hResult : evaluateReceiptLifecycle t scheme schema receiptEnvelope lifecycleEnvelope trustedRootJwk now
      minimum = .ok result) : result.feedSequence = feed.sequence ∧
      (feed.sequence < minimum → result.lifecycle = .signatureValidLifecycleUnknown) := by
  simp only [evaluateReceiptLifecycle, hVerified, bind, Except.bind] at hResult
  exact evaluateUnder_eq_ok hResult

variable (t scheme)

/-- What a returned result tells: the feed stays at or below the mark of its root,
and a verdict from it was not refused by a mark that was there at the start. -/
def Attested (inquiry : Inquiry) (floor : Option Mark) (result : Evaluation) (disk : Disk) : Prop :=
  ∀ feed payload keyid, verifyLifecycleEnvelope t scheme inquiry.lifecycleEnvelope inquiry.trustedRootJwk =
      .ok (feed, payload) → jwkThumbprint t inquiry.trustedRootJwk = .ok keyid →
    Watermark.Below (some ⟨feed.sequence, some (t.sha256 payload).hexdigest⟩) (recorded? t disk.file keyid) ∧
      (result.lifecycle ≠ .signatureValidLifecycleUnknown → ∀ mark, floor = some mark →
        mark.Admits feed.sequence (t.sha256 payload).hexdigest)

/-- The mark that was there at the start is still there. -/
def Above (inquiry : Inquiry) (floor : Option Mark) (disk : Disk) : Prop :=
  ∀ keyid, jwkThumbprint t inquiry.trustedRootJwk = .ok keyid →
    Watermark.Below floor (recorded? t disk.file keyid)

variable {t scheme}

theorem Above.stable {inquiry : Inquiry} {floor : Option Mark} :
    Stable (fun _ => True) (Rises t) (Above t inquiry floor) :=
  fun _ _ _ _ hRises hAbove keyid hKeyid => (hAbove keyid hKeyid).trans (hRises keyid)

theorem Attested.stable {inquiry : Inquiry} {floor : Option Mark} (result : Evaluation) :
    Stable (fun _ => True) (Rises t) (Attested t scheme inquiry floor result) := by
  intro before after _ _ hRises hAttested feed payload keyid hVerified hKeyid
  obtain ⟨hBelow, hAdmits⟩ := hAttested feed payload keyid hVerified hKeyid
  exact ⟨hBelow.trans (hRises keyid), hAdmits⟩

/-- The record of a feed by a caller whose root had this mark at the start. -/
theorem recordFeed_outline {inquiry : Inquiry} {floor : Option Mark} {feed : Feed} {payload : Bytes}
    (hVerified : verifyLifecycleEnvelope t scheme inquiry.lifecycleEnvelope inquiry.trustedRootJwk =
      .ok (feed, payload)) (result : Evaluation) :
    Outline (fun _ => True) (Rises t) (Rises t)
      (Ends (fun _ => Attested t scheme inquiry floor result) fun _ => True)
      (Above t inquiry floor) (recordFeed t inquiry feed payload) := by
  refine Outline.once (fun disk _ hAbove => ?_)
    (Stable.ends (fun _ => Attested.stable result) fun _ _ _ _ _ _ => trivial)
  have hRecord := record_triple t inquiry.access inquiry.trustedRootJwk feed.sequence
    (t.sha256 payload).hexdigest disk.file disk rfl
  cases hRun : record t inquiry.access inquiry.trustedRootJwk feed.sequence (t.sha256 payload).hexdigest disk with
  | mk outcome after =>
      rw [hRun] at hRecord
      cases outcome with
      | error error => exact ⟨trivial, Rises.of_file hRecord, trivial⟩
      | ok value =>
          obtain ⟨keyid, hKeyid, hRecords⟩ := hRecord
          refine ⟨trivial, hRecords.rises, ?_⟩
          intro other image otherKeyid hOther hOtherKeyid
          obtain ⟨rfl, rfl⟩ := Prod.mk.inj (Except.ok.inj (hVerified.symm.trans hOther))
          obtain rfl := Except.ok.inj (hKeyid.symm.trans hOtherKeyid)
          rw [hRecords.self]
          refine ⟨Watermark.Below.refl _, fun _ mark hFloor => ?_⟩
          have hBelow := hAbove keyid hKeyid
          rw [hFloor] at hBelow
          obtain ⟨stored, hStored, hLe⟩ := Watermark.below_some.mp hBelow
          exact (hRecords.admits stored hStored).mono hLe

/-- A sequence below the recorded one is below the mark. -/
theorem below_recorded {file : Option Bytes} {keyid : String} {sequence : Int} {digest : Option String}
    (hPositive : 1 ≤ sequence) (hBelow : sequence < recordedSequence t file keyid) :
    Watermark.Below (some ⟨sequence, digest⟩) (recorded? t file keyid) := by
  unfold recordedSequence at hBelow
  cases hMark : recorded? t file keyid with
  | none =>
      rw [hMark] at hBelow
      have hNegative : sequence < 0 := hBelow
      omega
  | some mark =>
      rw [hMark] at hBelow
      exact Watermark.le_def.mpr (Or.inl hBelow)

/-- The minimum that a caller has read, which no later step takes back. -/
def Floored (t : Toolkit) (inquiry : Inquiry) (minimum : Int) (disk : Disk) : Prop :=
  ∀ keyid, jwkThumbprint t inquiry.trustedRootJwk = .ok keyid → minimum ≤ recordedSequence t disk.file keyid

theorem Floored.stable {inquiry : Inquiry} {minimum : Int} :
    Stable (fun _ => True) (Rises t) (Floored t inquiry minimum) :=
  fun _ _ _ _ hRises hFloored keyid hKeyid => (hFloored keyid hKeyid).trans (hRises.recordedSequence keyid)

theorem readMinimum_outline (inquiry : Inquiry) (floor : Option Mark) :
    Outline (fun _ => True) (Rises t) (Rises t)
      (Ends (fun minimum disk => Above t inquiry floor disk ∧ Floored t inquiry minimum disk) fun _ => True)
      (Above t inquiry floor) (readMinimum t inquiry) := by
  apply Outline.read Rises.refl
  · intro disk _ hAbove
    cases hRead : (do
        inquiry.access.reads
        minimum t disk.file inquiry.trustedRootJwk) with
    | error error => trivial
    | ok minimum =>
        obtain ⟨-, -, hMinimum⟩ := Except.bind_eq_ok_iff.mp hRead
        exact ⟨hAbove, fun keyid hKeyid => (minimum_eq_ok hKeyid hMinimum).le⟩
  · refine Stable.ends (fun minimum => ?_) fun _ _ _ _ _ _ => trivial
    intro before after hBefore hAfter hRises hBoth
    exact ⟨Above.stable before after hBefore hAfter hRises hBoth.1,
      Floored.stable before after hBefore hAfter hRises hBoth.2⟩

/-- One evaluation beside others that let the marks rise. -/
theorem evaluation_outline (inquiry : Inquiry) (floor : Option Mark) :
    Outline (fun _ => True) (Rises t) (Rises t)
      (Ends (Attested t scheme inquiry floor) fun _ => True)
      (Above t inquiry floor) (evaluateReceiptLifecycleWithState t scheme schema inquiry) := by
  unfold evaluateReceiptLifecycleWithState
  cases hVerified : verifyLifecycleEnvelope t scheme inquiry.lifecycleEnvelope inquiry.trustedRootJwk with
  | error error => exact .ended fun _ _ _ => trivial
  | ok verified =>
      obtain ⟨feed, payload⟩ := verified
      apply Outline.andThen (readMinimum_outline inquiry floor)
      intro minimum
      cases hResult : evaluateReceiptLifecycle t scheme schema inquiry.receiptEnvelope inquiry.lifecycleEnvelope
        inquiry.trustedRootJwk inquiry.now minimum with
      | error error => exact .ended fun _ _ _ => trivial
      | ok result =>
          obtain ⟨hSequence, hUnknown⟩ := evaluateReceiptLifecycle_eq_ok hVerified hResult
          show Outline _ _ _ _ _ (if minimum ≤ result.feedSequence then do
              recordFeed t inquiry feed payload
              return result
            else return result)
          split
          · apply Outline.andThen ((recordFeed_outline hVerified result).weaken fun _ _ hBoth => hBoth.1)
            exact fun _ => .ended fun _ _ hAttested => hAttested
          · next hLow =>
              have hBelow : feed.sequence < minimum := by omega
              refine .ended fun disk _ hBoth other image keyid hOther hKeyid => ?_
              obtain ⟨rfl, rfl⟩ := Prod.mk.inj (Except.ok.inj (hVerified.symm.trans hOther))
              have hPositive := (verifyLifecycleEnvelope_eq_ok hVerified).2
              have hRecorded := hBoth.2 keyid hKeyid
              exact ⟨below_recorded hPositive (by omega), fun hVerdict => absurd (hUnknown hBelow) hVerdict⟩

variable (t scheme schema) in
/-- Evaluations that share one store. -/
def evaluations {Caller : Type} (inquiries : Caller → Inquiry) (disk : Disk) :
    Pool Caller Disk Raised Evaluation :=
  ⟨disk, fun caller => evaluateReceiptLifecycleWithState t scheme schema (inquiries caller)⟩

variable {Caller : Type} [DecidableEq Caller] {inquiries : Caller → Inquiry} {disk : Disk}

omit [DecidableEq Caller] in
variable (t scheme schema inquiries disk) in
theorem evaluations_outlined : (evaluations t scheme schema inquiries disk).Outlined (fun _ => True)
    (fun _ => Rises t) (fun _ => Rises t)
    (fun caller => Ends (Attested t scheme (inquiries caller) none) fun _ => True) :=
  ⟨trivial, fun caller => ⟨Above t (inquiries caller) none, Above.stable, fun _ _ => trivial,
    evaluation_outline (inquiries caller) none⟩⟩

/-- The evaluations after any schedule, and what their steps did to the marks. -/
theorem evaluations_run {pool : Pool Caller Disk Raised Evaluation} {floor : Caller → Option Mark}
    (outlined : pool.Outlined (fun _ => True) (fun _ => Rises t) (fun _ => Rises t)
      fun caller => Ends (Attested t scheme (inquiries caller) (floor caller)) fun _ => True)
    (schedule : List Caller) :
    (pool.run schedule).Outlined (fun _ => True) (fun _ => Rises t) (fun _ => Rises t)
        (fun caller => Ends (Attested t scheme (inquiries caller) (floor caller)) fun _ => True) ∧
      Rises t pool.state (pool.run schedule).state :=
  outlined.run (fun _ _ _ _ _ _ _ hRises => hRises) Rises.refl (fun _ _ _ => Rises.trans)
    (fun _ _ _ hRises => hRises) schedule

/-- Where a mark is there before a call has started, the call is held to it. -/
theorem outlined_with_floor {pool : Pool Caller Disk Raised Evaluation} {caller : Caller} {mark : Mark}
    (outlined : pool.Outlined (fun _ => True) (fun _ => Rises t) (fun _ => Rises t)
      fun caller => Ends (Attested t scheme (inquiries caller) none) fun _ => True)
    (hStart : pool.threads caller = evaluateReceiptLifecycleWithState t scheme schema (inquiries caller))
    (hMark : Above t (inquiries caller) (some mark) pool.state) :
    pool.Outlined (fun _ => True) (fun _ => Rises t) (fun _ => Rises t)
      fun other => Ends (Attested t scheme (inquiries other) (if other = caller then some mark else none))
        fun _ => True := by
  refine ⟨trivial, fun other => ?_⟩
  by_cases hOther : other = caller
  · subst hOther
    rw [if_pos rfl, hStart]
    exact ⟨_, Above.stable, hMark, evaluation_outline (inquiries other) (some mark)⟩
  · rw [if_neg hOther]
    exact outlined.threads other

/-- In every interleaving the recorded sequences only rise; after a result from a
feed, a call that starts later gives no verdict from a feed of the same root below
it, or beside it with another payload; and a record that raises changes nothing. -/
theorem rollback_protected (t : Toolkit) (scheme : Ed25519 Key) (schema : Signing.Schema) (inquiries : Caller → Inquiry)
    (disk : Disk)
    (hFree : ∀ caller other feed payload image imagePayload,
      verifyLifecycleEnvelope t scheme (inquiries caller).lifecycleEnvelope (inquiries caller).trustedRootJwk =
        .ok (feed, payload) →
      verifyLifecycleEnvelope t scheme (inquiries other).lifecycleEnvelope (inquiries other).trustedRootJwk =
        .ok (image, imagePayload) →
      (t.sha256 payload).hexdigest = (t.sha256 imagePayload).hexdigest → payload = imagePayload) :
    (∀ first second keyid,
      recordedSequence t ((evaluations t scheme schema inquiries disk).run first).state.file keyid ≤
        recordedSequence t ((evaluations t scheme schema inquiries disk).run (first ++ second)).state.file keyid) ∧
    (∀ first second earlier later result verdict feed payload older image, later ∉ first →
      (((evaluations t scheme schema inquiries disk).run first).threads earlier).outcome? = some (.ok result) →
      (((evaluations t scheme schema inquiries disk).run (first ++ second)).threads later).outcome? =
        some (.ok verdict) →
      jwkThumbprint t (inquiries earlier).trustedRootJwk = jwkThumbprint t (inquiries later).trustedRootJwk →
      verifyLifecycleEnvelope t scheme (inquiries earlier).lifecycleEnvelope (inquiries earlier).trustedRootJwk =
        .ok (feed, payload) →
      verifyLifecycleEnvelope t scheme (inquiries later).lifecycleEnvelope (inquiries later).trustedRootJwk =
        .ok (older, image) →
      older.sequence < feed.sequence ∨ older.sequence = feed.sequence ∧ image ≠ payload →
      verdict.lifecycle = .signatureValidLifecycleUnknown) ∧
    ∀ access trustedRootJwk sequence digest before error after,
      record t access trustedRootJwk sequence digest before = (.error error, after) → after.file = before.file := by
  refine ⟨fun first second keyid => ?_, ?_, ?_⟩
  · obtain ⟨hMiddle, -⟩ := evaluations_run (evaluations_outlined t scheme schema inquiries disk) first
    rw [Pool.run_append]
    exact (evaluations_run hMiddle second).2.recordedSequence keyid
  · intro first second earlier later result verdict feed payload older image hLater hResult hVerdict hRoot
      hFeed hOlder hBelow
    obtain ⟨hMiddle, -⟩ := evaluations_run (evaluations_outlined t scheme schema inquiries disk) first
    obtain ⟨⟨keyid, hKeyid⟩, -⟩ := verifyLifecycleEnvelope_eq_ok hFeed
    have hRecorded := (hMiddle.outcome hResult feed payload keyid hFeed hKeyid).1
    have hStart : ((evaluations t scheme schema inquiries disk).run first).threads later =
        evaluateReceiptLifecycleWithState t scheme schema (inquiries later) :=
      Pool.run_threads_of_notMem hLater
    have hAbove : Above t (inquiries later) (some ⟨feed.sequence, some (t.sha256 payload).hexdigest⟩)
        ((evaluations t scheme schema inquiries disk).run first).state := by
      intro other hOther
      obtain rfl := Except.ok.inj (hKeyid.symm.trans (hRoot.trans hOther))
      exact hRecorded
    have hFloor := outlined_with_floor hMiddle hStart hAbove
    rw [Pool.run_append] at hVerdict
    obtain ⟨hEnd, -⟩ := evaluations_run hFloor second
    have hAttested := (hEnd.outcome hVerdict older image keyid hOlder (hRoot ▸ hKeyid)).2
    by_contra hOther
    obtain ⟨hSequence, hDigest⟩ := hAttested hOther _ (if_pos rfl)
    rcases hBelow with hLower | ⟨hSame, hPayload⟩
    · exact absurd (show feed.sequence ≤ older.sequence from hSequence) (by omega)
    · rcases hDigest hSame with hNone | hSome
      · cases hNone
      · exact hPayload (hFree _ _ _ _ _ _ hFeed hOlder (Option.some.inj hSome)).symm
  · intro access trustedRootJwk sequence digest before error after hRaises
    have hRecord := record_triple t access trustedRootJwk sequence digest before.file before rfl
    rw [hRaises] at hRecord
    exact hRecord

end

/-- Two evaluations of one signed feed, over a store that is not there yet. -/
theorem rollback_protected_sample : ∃ inquiries : Bool → Inquiry,
    (∃ verified, ∀ caller, verifyLifecycleEnvelope .standard (.keyedDigest .standard)
      (inquiries caller).lifecycleEnvelope (inquiries caller).trustedRootJwk = .ok verified) ∧
    ∀ schedule keyid, recordedSequence .standard none keyid ≤ recordedSequence .standard
      ((evaluations .standard (.keyedDigest .standard) (fun _ => true) inquiries ⟨none, fun _ => none⟩).run
        schedule).state.file keyid := by
  obtain ⟨envelope, hVerified⟩ := weekFeed_verified [2] [1] .active
  let inquiries : Bool → Inquiry := fun caller =>
    { receiptEnvelope := [], lifecycleEnvelope := envelope
      trustedRootJwk := publicJwk (.keyedDigest .standard) [2], now := 1767225600000000
      access := { temporary := if caller then "first" else "second" } }
  refine ⟨inquiries, ⟨_, fun _ => hVerified⟩, fun schedule keyid => ?_⟩
  refine (rollback_protected .standard (.keyedDigest .standard) (fun _ => true) inquiries ⟨none, fun _ => none⟩
    ?_).1 [] schedule keyid
  intro caller other feed payload image imagePayload hFeed hImage _
  exact congrArg Prod.snd (Except.ok.inj (hFeed.symm.trans hImage))

end Lifecycle

end VouchSpec
