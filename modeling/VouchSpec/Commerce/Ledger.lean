import VouchSpec.Commerce.Evolution

/-! Conservation in the ledger: the financial entries of an order account for
its columns, and the summary for all orders together. -/

namespace VouchSpec

/-- The payment was captured at some time. -/
def PaymentStatus.Paid (status : PaymentStatus) : Prop := status ≠ .pending ∧ status ≠ .failed

instance (status : PaymentStatus) : Decidable status.Paid := inferInstanceAs (Decidable (_ ∧ _))

/-- The contribution of an amount in a category. -/
def EntryCategory.impact (category : EntryCategory) (amount : Nat) : Int :=
  match category with
  | .grossCollected => amount
  | _ => -amount

/-- How many entries of a category an order has. -/
def OrderRow.expectedEntries (order : OrderRow) : EntryCategory → Nat
  | .grossCollected => if order.paymentStatus.Paid then 1 else 0
  | .processingFee => if order.paymentStatus.Paid then 1 else 0
  | .refund => if order.paymentStatus = .refunded then 1 else 0
  | .direct _ => if order.directCostsRecorded then 1 else 0

/-- How many of some entries are in a category. -/
def entryCount (entries : List EntryRow) (category : EntryCategory) : Nat :=
  entries.countP fun row => row.category = category

/-- The sum of the costs that cost records list. -/
def recordedCosts (records : List CostRow) : Nat :=
  (records.map fun record => (record.costs.map Prod.snd).sum).sum

namespace Commerce

theorem categoryAmount_append (left right : List EntryRow) (category : EntryCategory) :
    categoryAmount (left ++ right) category =
      categoryAmount left category + categoryAmount right category := by
  simp [categoryAmount]

theorem categoryAmount_eq_zero {entries : List EntryRow} {category : EntryCategory}
    (hNone : entryCount entries category = 0) : categoryAmount entries category = 0 := by
  rw [entryCount, List.countP_eq_length_filter, List.length_eq_zero_iff] at hNone
  rw [categoryAmount, hNone]
  rfl

theorem contribution_append (left right : List EntryRow) :
    contribution (left ++ right) = contribution left + contribution right := by
  simp [contribution]

/-- The sum over the direct categories of their amounts. -/
def directAmount (entries : List EntryRow) : Nat :=
  (DirectCost.all.map fun category => categoryAmount entries (.direct category)).sum

theorem directAmount_append (left right : List EntryRow) :
    directAmount (left ++ right) = directAmount left + directAmount right := by
  unfold directAmount
  simp only [categoryAmount_append]
  exact List.sum_map_add

private theorem directAmount_singleton (row : EntryRow) :
    directAmount [row] =
      match row.category with
      | .direct _ => row.amountMinor
      | _ => 0 := by
  cases hCategory : row.category with
  | direct category =>
      cases category <;> simp [directAmount, categoryAmount, DirectCost.all, hCategory]
  | _ => simp [directAmount, categoryAmount, DirectCost.all, hCategory]

/-- Entries whose contributions carry the sign of their category contribute
what was collected less the fee, the refund and the direct costs. -/
theorem contribution_eq_of_signed {entries : List EntryRow}
    (hSigned : ∀ row ∈ entries, row.contributionImpactMinor = row.category.impact row.amountMinor) :
    contribution entries = categoryAmount entries .grossCollected -
      categoryAmount entries .processingFee - categoryAmount entries .refund -
      directAmount entries := by
  induction entries with
  | nil => rfl
  | cons row rest ih =>
      have hRest := ih fun other hOther => hSigned other (List.mem_cons_of_mem _ hOther)
      have hSplit : row :: rest = [row] ++ rest := rfl
      rw [hSplit, contribution_append, hRest, directAmount_append, directAmount_singleton]
      simp only [categoryAmount_append]
      have hImpact := hSigned row List.mem_cons_self
      cases hCategory : row.category <;>
        simp [contribution, categoryAmount, hCategory, hImpact, EntryCategory.impact] <;> omega

end Commerce

/-- The ledger invariant of one account. -/
structure Account.Balanced (account : Account) : Prop where
  signed : ∀ row ∈ account.entries, row.contributionImpactMinor = row.category.impact row.amountMinor
  counted : ∀ category, entryCount account.entries category = account.order.expectedEntries category
  gross : Commerce.categoryAmount account.entries .grossCollected = account.order.collectedAmountMinor
  fee : Commerce.categoryAmount account.entries .processingFee = account.order.processingFeeMinor
  refund : Commerce.categoryAmount account.entries .refund = account.order.refundedAmountMinor
  direct : Commerce.directAmount account.entries = recordedCosts account.costs
  collected : account.order.collectedAmountMinor =
    if account.order.paymentStatus.Paid then account.order.quotedAmountMinor else 0
  refunded : account.order.refundedAmountMinor =
    if account.order.paymentStatus = .refunded then account.order.quotedAmountMinor else 0

namespace Account

theorem opened_balanced {order : OrderRow} (hNew : order.New) (sourceReference occurredAt : String) :
    (opened order sourceReference occurredAt).Balanced := by
  obtain ⟨hCollected, hRefunded, hFee⟩ := hNew.amounts
  have hPending := hNew.paymentStatus
  have hUnpaid : ¬order.paymentStatus.Paid := by simp [PaymentStatus.Paid, hPending]
  exact {
    signed := by simp [opened]
    counted := by
      intro category
      change 0 = order.expectedEntries category
      cases category with
      | refund => simp [OrderRow.expectedEntries, hPending]
      | direct _ => simp [OrderRow.expectedEntries, hNew.flags.1]
      | _ => simp [OrderRow.expectedEntries, hUnpaid]
    gross := hCollected.symm
    fee := hFee.symm
    refund := hRefunded.symm
    direct := rfl
    collected := hCollected.trans (if_neg hUnpaid).symm
    refunded := by
      apply hRefunded.trans
      simp [opened, hPending] }

theorem entryCount_append (left right : List EntryRow) (category : EntryCategory) :
    entryCount (left ++ right) category = entryCount left category + entryCount right category := by
  simp [entryCount]

/-- An effect without entries and costs keeps the balance, if it leaves the
columns of the ledger alone. -/
theorem Balanced.of_frame {account : Account} (balanced : account.Balanced) {effect : Effect}
    (hEntries : effect.entries = []) (hCosts : effect.costs = [])
    (hPaid : (effect.change account.order).paymentStatus.Paid ↔ account.order.paymentStatus.Paid)
    (hRefunded : (effect.change account.order).paymentStatus = .refunded ↔
      account.order.paymentStatus = .refunded)
    (hColumns : (effect.change account.order).collectedAmountMinor = account.order.collectedAmountMinor ∧
      (effect.change account.order).refundedAmountMinor = account.order.refundedAmountMinor ∧
      (effect.change account.order).processingFeeMinor = account.order.processingFeeMinor ∧
      (effect.change account.order).quotedAmountMinor = account.order.quotedAmountMinor ∧
      (effect.change account.order).directCostsRecorded = account.order.directCostsRecorded) :
    (account.after effect).Balanced := by
  obtain ⟨hCollected, hRefund, hFee, hQuoted, hDirect⟩ := hColumns
  have hExpected : ∀ category, (effect.change account.order).expectedEntries category =
      account.order.expectedEntries category := by
    intro category
    cases category <;> simp [OrderRow.expectedEntries, hPaid, hRefunded, hDirect]
  exact {
    signed := by simpa [hEntries] using balanced.signed
    counted := by simpa [hEntries, hExpected] using balanced.counted
    gross := by simpa [hEntries, hCollected] using balanced.gross
    fee := by simpa [hEntries, hFee] using balanced.fee
    refund := by simpa [hEntries, hRefund] using balanced.refund
    direct := by simpa [hEntries, hCosts] using balanced.direct
    collected := by simpa [hCollected, hPaid, hQuoted] using balanced.collected
    refunded := by simpa [hRefund, hRefunded, hQuoted] using balanced.refunded }

/-- The entries of a capture. -/
private theorem captured_entries {event : ProviderEvent} (hType : event.type = .captured)
    (orderId : String) (category : EntryCategory) :
    entryCount (event.entries orderId) category =
        (if category = .grossCollected ∨ category = .processingFee then 1 else 0) ∧
      Commerce.categoryAmount (event.entries orderId) category =
        (if category = .grossCollected then event.amountMinor
          else if category = .processingFee then event.feeMinor else 0) := by
  cases category <;> simp [entryCount, Commerce.categoryAmount, ProviderEvent.entries, hType,
    EventType.target]

/-- The entry of a refund. -/
private theorem refunded_entries {event : ProviderEvent} (hType : event.type = .refunded)
    (orderId : String) (category : EntryCategory) :
    entryCount (event.entries orderId) category = (if category = .refund then 1 else 0) ∧
      Commerce.categoryAmount (event.entries orderId) category =
        (if category = .refund then event.amountMinor else 0) := by
  cases category <;> simp [entryCount, Commerce.categoryAmount, ProviderEvent.entries, hType,
    EventType.target]

/-- No event books a direct cost. -/
private theorem entries_direct (event : ProviderEvent) (orderId : String) :
    Commerce.directAmount (event.entries orderId) = 0 := by
  cases hType : event.type <;> simp [Commerce.directAmount, Commerce.categoryAmount, ProviderEvent.entries, hType,
    EventType.target, DirectCost.all]

private theorem entries_signed (event : ProviderEvent) (orderId : String) :
    ∀ row ∈ event.entries orderId,
      row.contributionImpactMinor = row.category.impact row.amountMinor := by
  cases hType : event.type <;> simp [ProviderEvent.entries, hType, EventType.target,
    EntryCategory.impact]

/-- An applied event keeps the account balanced. -/
theorem Balanced.payment {account : Account} (balanced : account.Balanced) {event : ProviderEvent}
    (hMatches : account.order.Matches event) (hAdmits : account.order.Admits event) :
    (account.after (.payment account.order event)).Balanced := by
  have hEdge := hAdmits.1
  have hSigned : ∀ row ∈ account.entries ++ event.entries account.order.orderId,
      row.contributionImpactMinor = row.category.impact row.amountMinor := by
    intro row hRow
    rcases List.mem_append.mp hRow with hOld | hNew
    · exact balanced.signed row hOld
    · exact entries_signed event account.order.orderId row hNew
  cases hType : event.type with
  | captured =>
      have hPending : account.order.paymentStatus = .pending := by
        cases hStatus : account.order.paymentStatus <;>
          simp [hType, EventType.target, hStatus, paymentTransitions] at hEdge ⊢
      have hUnpaid : ¬account.order.paymentStatus.Paid := by simp [PaymentStatus.Paid, hPending]
      have hEntries := captured_entries hType account.order.orderId
      have hCollected : account.order.collectedAmountMinor = 0 :=
        balanced.collected.trans (if_neg hUnpaid)
      have hFee : Commerce.categoryAmount account.entries .processingFee = 0 :=
        Commerce.categoryAmount_eq_zero ((balanced.counted .processingFee).trans (if_neg hUnpaid))
      exact {
        signed := hSigned
        counted := by
          intro category
          refine (entryCount_append _ _ category).trans ?_
          rw [balanced.counted]
          refine (congrArg _ (hEntries category).1).trans ?_
          cases category <;>
            simp [OrderRow.expectedEntries, Effect.payment, OrderRow.advance, hType,
              EventType.target, hPending, PaymentStatus.Paid]
        gross := by
          refine (Commerce.categoryAmount_append _ _ _).trans ?_
          rw [balanced.gross, hCollected]
          refine (congrArg _ (hEntries _).2).trans ?_
          simp [Effect.payment, OrderRow.advance, hType, EventType.target]
        fee := by
          refine (Commerce.categoryAmount_append _ _ _).trans ?_
          rw [hFee]
          refine (congrArg _ (hEntries _).2).trans ?_
          simp [Effect.payment, OrderRow.advance, hType, EventType.target]
        refund := by
          refine (Commerce.categoryAmount_append _ _ _).trans ?_
          rw [balanced.refund]
          refine (congrArg _ (hEntries _).2).trans ?_
          simp [Effect.payment, OrderRow.advance, hType, EventType.target]
        direct := by
          refine (Commerce.directAmount_append _ _).trans ?_
          rw [balanced.direct]
          refine (congrArg _ (entries_direct event _)).trans ?_
          simp [Effect.payment]
        collected := by
          simp [Effect.payment, OrderRow.advance, hType, EventType.target, PaymentStatus.Paid,
            hMatches.1]
        refunded := by
          have hRefund := balanced.refunded
          rw [if_neg (by simp [hPending])] at hRefund
          simpa [Effect.payment, OrderRow.advance, hType, EventType.target] using hRefund }
  | refunded =>
      have hStatus : account.order.paymentStatus = .refundPending := by
        cases hStatus : account.order.paymentStatus <;>
          simp [hType, EventType.target, hStatus, paymentTransitions] at hEdge ⊢
      have hEntries := refunded_entries hType account.order.orderId
      have hRefund : account.order.refundedAmountMinor = 0 :=
        balanced.refunded.trans (if_neg (by simp [hStatus]))
      exact {
        signed := hSigned
        counted := by
          intro category
          refine (entryCount_append _ _ category).trans ?_
          rw [balanced.counted]
          refine (congrArg _ (hEntries category).1).trans ?_
          cases category <;>
            simp [OrderRow.expectedEntries, Effect.payment, OrderRow.advance, hType,
              EventType.target, hStatus, PaymentStatus.Paid]
        gross := by
          refine (Commerce.categoryAmount_append _ _ _).trans ?_
          rw [balanced.gross]
          refine (congrArg _ (hEntries _).2).trans ?_
          simp [Effect.payment, OrderRow.advance, hType, EventType.target]
        fee := by
          refine (Commerce.categoryAmount_append _ _ _).trans ?_
          rw [balanced.fee]
          refine (congrArg _ (hEntries _).2).trans ?_
          simp [Effect.payment, OrderRow.advance, hType, EventType.target]
        refund := by
          refine (Commerce.categoryAmount_append _ _ _).trans ?_
          rw [balanced.refund, hRefund]
          refine (congrArg _ (hEntries _).2).trans ?_
          simp [Effect.payment, OrderRow.advance, hType, EventType.target]
        direct := by
          refine (Commerce.directAmount_append _ _).trans ?_
          rw [balanced.direct]
          refine (congrArg _ (entries_direct event _)).trans ?_
          simp [Effect.payment]
        collected := by
          have hCollected := balanced.collected
          rw [if_pos (by simp [PaymentStatus.Paid, hStatus])] at hCollected
          simpa [Effect.payment, OrderRow.advance, hType, EventType.target,
            PaymentStatus.Paid] using hCollected
        refunded := by
          simp [Effect.payment, OrderRow.advance, hType, EventType.target, hMatches.1] }
  | _ =>
      -- Only the payment status moves: between paid statuses, or from pending to failed.
      refine balanced.of_frame (by simp [Effect.payment, ProviderEvent.entries, hType,
        EventType.target]) rfl ?_ ?_ (by simp [Effect.payment, OrderRow.advance, hType,
        EventType.target])
      all_goals
        cases hStatus : account.order.paymentStatus <;>
          simp [hType, EventType.target, hStatus, paymentTransitions] at hEdge
      all_goals simp [Effect.payment, OrderRow.advance, hType, EventType.target, PaymentStatus.Paid]

/-- The entries of recorded costs: one in every direct category, none elsewhere. -/
private theorem cost_entries (orderId idempotencyKey timestamp : String)
    {amounts : List (DirectCost × Nat)} (hAmounts : amounts.map Prod.fst = DirectCost.all)
    (category : EntryCategory) :
    entryCount (Commerce.costEntries orderId idempotencyKey timestamp amounts) category =
      match category with
      | .direct _ => 1
      | _ => 0 := by
  unfold entryCount Commerce.costEntries
  rw [List.countP_map]
  cases category with
  | direct category =>
      have hOnce : (amounts.map Prod.fst).count category = 1 := by
        rw [hAmounts]
        exact List.count_eq_one_of_mem DirectCost.all_nodup (DirectCost.mem_all category)
      rw [List.count, List.countP_map] at hOnce
      rw [← hOnce]
      apply List.countP_congr
      intro cost _
      simp
  | _ =>
      rw [List.countP_eq_zero]
      simp

private theorem cost_amounts (orderId idempotencyKey timestamp : String)
    (amounts : List (DirectCost × Nat)) (category : EntryCategory)
    (hCategory : ∀ direct, category ≠ .direct direct) :
    Commerce.categoryAmount (Commerce.costEntries orderId idempotencyKey timestamp amounts) category =
      0 := by
  have hNone : (Commerce.costEntries orderId idempotencyKey timestamp amounts).filter
      (fun row => row.category = category) = [] := by
    rw [List.filter_eq_nil_iff]
    intro row hRow
    obtain ⟨cost, -, rfl⟩ := List.mem_map.mp hRow
    simpa using fun h => hCategory cost.1 h.symm
  simp [Commerce.categoryAmount, hNone]

private theorem cost_direct (orderId idempotencyKey timestamp : String)
    (amounts : List (DirectCost × Nat)) :
    Commerce.directAmount (Commerce.costEntries orderId idempotencyKey timestamp amounts) =
      (amounts.map Prod.snd).sum := by
  induction amounts with
  | nil => rfl
  | cons cost rest ih =>
      have hSplit : Commerce.costEntries orderId idempotencyKey timestamp (cost :: rest) =
          Commerce.costEntries orderId idempotencyKey timestamp [cost] ++
            Commerce.costEntries orderId idempotencyKey timestamp rest := rfl
      rw [hSplit, Commerce.directAmount_append, ih, List.map_cons, List.sum_cons]
      congr 1
      exact Commerce.directAmount_singleton _

/-- Recording the direct costs keeps the account balanced. -/
theorem Balanced.costing {account : Account} (balanced : account.Balanced)
    (idempotencyKey timestamp : String) {amounts : List (DirectCost × Nat)}
    (hAmounts : amounts.map Prod.fst = DirectCost.all)
    (hOpen : account.order.directCostsRecorded = false) :
    (account.after (.costing account.order idempotencyKey timestamp amounts)).Balanced := by
  have hAmount : ∀ category, (∀ direct, category ≠ .direct direct) →
      Commerce.categoryAmount (account.after
        (.costing account.order idempotencyKey timestamp amounts)).entries category =
        Commerce.categoryAmount account.entries category := by
    intro category hCategory
    apply (Commerce.categoryAmount_append _ _ _).trans
    exact congrArg _ (cost_amounts _ _ _ _ _ hCategory)
  exact {
    signed := by
      intro row hRow
      rcases List.mem_append.mp hRow with hOld | hNew
      · exact balanced.signed row hOld
      · obtain ⟨cost, -, rfl⟩ := List.mem_map.mp hNew
        rfl
    counted := by
      intro category
      apply (entryCount_append _ _ category).trans
      rw [balanced.counted]
      apply (congrArg _ (cost_entries _ _ _ hAmounts category)).trans
      cases category with
      | direct _ => simp [OrderRow.expectedEntries, Effect.costing, hOpen]
      | _ => rfl
    gross := (hAmount _ (by simp)).trans balanced.gross
    fee := (hAmount _ (by simp)).trans balanced.fee
    refund := (hAmount _ (by simp)).trans balanced.refund
    direct := by
      apply (Commerce.directAmount_append _ _).trans
      rw [balanced.direct]
      apply (congrArg _ (cost_direct _ _ _ _)).trans
      simp [recordedCosts, Effect.costing]
    collected := balanced.collected
    refunded := balanced.refunded }

/-- Every allowed effect keeps the account balanced. -/
theorem Allowed.balanced {account : Account} {effect : Effect} (allowed : account.Allowed effect)
    (balanced : account.Balanced) : (account.after effect).Balanced := by
  cases allowed with
  | payment event hBound hMatches hAdmits => exact balanced.payment hMatches hAdmits
  | costing idempotencyKey timestamp amounts hAmounts hOpen =>
      exact balanced.costing idempotencyKey timestamp hAmounts hOpen
  | _ => exact balanced.of_frame rfl rfl Iff.rfl Iff.rfl ⟨rfl, rfl, rfl, rfl, rfl⟩

theorem Evolves.balanced {account : Account} (evolves : Evolves none (some account)) :
    account.Balanced :=
  evolves.invariant Balanced opened_balanced Allowed.balanced (by simp) account rfl

end Account

namespace Commerce

variable {p : Platform} {db : Commerce}

/-- The direct costs recorded for an order. -/
def directCosts (db : Commerce) (orderId : String) : Nat :=
  recordedCosts (db.costRecords.rows.filter fun row => row.orderId = orderId)

/-- The ledger of one order accounts for its columns. -/
structure Conserved (db : Commerce) (order : OrderRow) : Prop where
  contribution : contribution (db.entriesOf order.orderId) =
    order.collectedAmountMinor - order.processingFeeMinor - order.refundedAmountMinor -
      db.directCosts order.orderId
  gross_once : entryCount (db.entriesOf order.orderId) .grossCollected ≤ 1
  fee_once : entryCount (db.entriesOf order.orderId) .processingFee ≤ 1
  refund_once : entryCount (db.entriesOf order.orderId) .refund ≤ 1
  direct_once : ∀ category, entryCount (db.entriesOf order.orderId) (.direct category) =
    if order.directCostsRecorded then 1 else 0
  collected : order.collectedAmountMinor = 0 ∨ order.collectedAmountMinor = order.quotedAmountMinor
  collected_iff : order.collectedAmountMinor = order.quotedAmountMinor ↔
    order.paymentStatus ≠ .pending ∧ order.paymentStatus ≠ .failed
  refunded : order.refundedAmountMinor = 0 ∨ order.refundedAmountMinor = order.collectedAmountMinor
  refunded_iff : order.refundedAmountMinor ≠ 0 ↔ order.paymentStatus = .refunded

theorem conserved_of_balanced {account : Account} (balanced : account.Balanced)
    (regular : account.order.Regular) (hAccount : db.account? account.order.orderId = some account) :
    db.Conserved account.order := by
  obtain ⟨-, hEntries, hCosts, -⟩ := account?_eq_some.mp hAccount
  have hQuoted : account.order.quotedAmountMinor ≠ 0 := by
    rw [regular.quotedAmount]
    decide
  have hCollected := balanced.collected
  have hRefunded := balanced.refunded
  have hPaid : account.order.paymentStatus = .refunded → account.order.paymentStatus.Paid := by
    intro hStatus
    simp [PaymentStatus.Paid, hStatus]
  exact {
    contribution := by
      rw [← hEntries, contribution_eq_of_signed balanced.signed, balanced.gross, balanced.fee,
        balanced.refund, balanced.direct, hCosts]
      rfl
    gross_once := by
      rw [← hEntries, balanced.counted]
      simp only [OrderRow.expectedEntries]
      split <;> omega
    fee_once := by
      rw [← hEntries, balanced.counted]
      simp only [OrderRow.expectedEntries]
      split <;> omega
    refund_once := by
      rw [← hEntries, balanced.counted]
      simp only [OrderRow.expectedEntries]
      split <;> omega
    direct_once := by
      intro category
      rw [← hEntries, balanced.counted]
      rfl
    collected := by
      split at hCollected
      · exact Or.inr hCollected
      · exact Or.inl hCollected
    collected_iff := by
      change _ ↔ account.order.paymentStatus.Paid
      split at hCollected
      · next h => exact iff_of_true hCollected h
      · next h => exact iff_of_false (fun hEq => hQuoted (hEq.symm.trans hCollected)) h
    refunded := by
      split at hRefunded
      · next h =>
          rw [if_pos (hPaid h)] at hCollected
          exact Or.inr (hRefunded.trans hCollected.symm)
      · exact Or.inl hRefunded
    refunded_iff := by
      split at hRefunded
      · next h => exact iff_of_true (by rwa [hRefunded]) h
      · next h => exact iff_of_false (fun hNe => hNe hRefunded) h }

/-- The account of a stored order is balanced. -/
theorem WellFormed.balanced (wellFormed : WellFormed p db) {order : OrderRow}
    (hOrder : order ∈ db.orders.rows) :
    ∃ account, db.account? order.orderId = some account ∧ account.order = order ∧
      account.Balanced := by
  obtain ⟨account, hAccount, rfl⟩ := account?_of_order (order?_eq_some.mpr ⟨hOrder, rfl⟩)
  have hEvolves := wellFormed.accounts account.order.orderId
  rw [hAccount] at hEvolves
  exact ⟨account, hAccount, rfl, hEvolves.balanced⟩

theorem WellFormed.conserved (wellFormed : WellFormed p db) {order : OrderRow}
    (hOrder : order ∈ db.orders.rows) : db.Conserved order := by
  obtain ⟨account, hAccount, rfl, balanced⟩ := wellFormed.balanced hOrder
  exact conserved_of_balanced balanced (wellFormed.order_regular hOrder) hAccount

/-- The number of events of an order's payment that had no effect yet. -/
def pendingCount (db : Commerce) (order : OrderRow) : Nat :=
  match order.providerPaymentId with
  | some paymentId => (db.pendingEvents paymentId).length
  | none => 0

/-- The summary's totals are the sums over all orders. -/
structure SummaryAdds (db : Commerce) : Prop where
  orders : db.getFinancialSummary.orders = db.orders.rows.length
  collected : db.getFinancialSummary.collectedAmountMinor =
    (db.orders.rows.map fun order => order.collectedAmountMinor).sum
  refunded : db.getFinancialSummary.refundedAmountMinor =
    (db.orders.rows.map fun order => order.refundedAmountMinor).sum
  fees : db.getFinancialSummary.processingFeeMinor =
    (db.orders.rows.map fun order => order.processingFeeMinor).sum
  contribution : db.getFinancialSummary.ledgerContributionMinor =
    (db.orders.rows.map fun order =>
      (order.collectedAmountMinor - order.processingFeeMinor - order.refundedAmountMinor -
        db.directCosts order.orderId : Int)).sum
  goalContribution : db.getFinancialSummary.countsForGoalContributionMinor =
    (db.orders.rows.map fun order =>
      if order.countsForGoal then Commerce.contribution (db.entriesOf order.orderId) else 0).sum
  goalCollected : db.getFinancialSummary.countsForGoalCollectedMinor =
    (db.orders.rows.map fun order =>
      if order.countsForGoal then order.collectedAmountMinor else 0).sum
  pending : db.getFinancialSummary.pendingProviderEvents =
    (db.orders.rows.map fun order => db.pendingCount order).sum

/-- Every entry belongs to exactly one order. -/
theorem WellFormed.entry_owner (wellFormed : WellFormed p db) :
    ∀ row ∈ db.entries.rows, db.orders.rows.countP (fun order => row.orderId = order.orderId) = 1 := by
  intro row hRow
  apply Table.countP_eq_one
  · intro first second hFirst hSecond
    simp only [decide_eq_true_eq] at hFirst hSecond
    exact Or.inl (hFirst.symm.trans hSecond)
  · obtain ⟨order, hOrder⟩ := Option.isSome_iff_exists.mp (wellFormed.entry_orders row hRow)
    obtain ⟨hStored, hId⟩ := order?_eq_some.mp hOrder
    exact ⟨order, hStored, by simp [hId]⟩

/-- Every event belongs to exactly one order. -/
theorem WellFormed.event_owner (wellFormed : WellFormed p db) :
    ∀ row ∈ db.events.rows,
      db.orders.rows.countP (fun order => order.providerPaymentId = some row.paymentId) = 1 := by
  intro row hRow
  apply Table.countP_eq_one
  · intro first second hFirst hSecond
    simp only [decide_eq_true_eq] at hFirst hSecond
    refine Or.inr (Or.inr (Or.inr (Or.inr (Or.inl ⟨?_, hFirst.trans hSecond.symm⟩))))
    change first.providerPaymentId.isSome
    rw [hFirst, Option.isSome_some]
  · obtain ⟨order, hStored, hBound, -⟩ := wellFormed.event_orders row hRow
    exact ⟨order, hStored, by simp [hBound]⟩

theorem WellFormed.summaryAdds (wellFormed : WellFormed p db) : db.SummaryAdds where
  orders := rfl
  collected := rfl
  refunded := rfl
  fees := rfl
  contribution := by
    have hTotal := Table.sum_by_owner (fun row (order : OrderRow) => decide (row.orderId = order.orderId))
      EntryRow.contributionImpactMinor wellFormed.entry_owner
    apply hTotal.trans
    apply congrArg List.sum
    apply List.map_congr_left
    intro order hOrder
    exact (wellFormed.conserved hOrder).contribution
  goalContribution := by
    have hGoal : ∀ order ∈ db.orders.rows, order.countsForGoal = false := fun order hOrder =>
      (wellFormed.order_regular hOrder).countsForGoal
    have hNone : db.entries.rows.filter (fun entry =>
        db.orders.rows.any fun order => order.orderId = entry.orderId ∧ order.countsForGoal = true) =
          [] := by
      rw [List.filter_eq_nil_iff]
      intro entry _ hAny
      obtain ⟨order, hOrder, hBoth⟩ := List.any_eq_true.mp hAny
      simp [hGoal order hOrder] at hBoth
    have hZero : (db.orders.rows.map fun order =>
        if order.countsForGoal then Commerce.contribution (db.entriesOf order.orderId) else 0).sum =
          0 := by
      apply List.sum_eq_zero
      intro amount hAmount
      obtain ⟨order, hOrder, rfl⟩ := List.mem_map.mp hAmount
      rw [hGoal order hOrder]
      rfl
    rw [hZero]
    unfold getFinancialSummary
    rw [hNone]
    rfl
  goalCollected := rfl
  pending := by
    have hOwner : ∀ row ∈ db.events.rows.filter (fun row => row.status = .pending),
        db.orders.rows.countP (fun order => order.providerPaymentId = some row.paymentId) = 1 :=
      fun row hRow => wellFormed.event_owner row (List.mem_filter.mp hRow).1
    have hTotal := Table.sum_by_owner
      (fun row order => decide (OrderRow.providerPaymentId order = some (EventRow.paymentId row)))
      (fun _ => 1) hOwner
    have hCount : ∀ rows : List EventRow, (rows.map fun _ => 1).sum = rows.length := by
      intro rows
      simp
    simp only [hCount] at hTotal
    apply hTotal.trans
    apply congrArg List.sum
    apply List.map_congr_left
    intro order hOrder
    rw [List.filter_filter, pendingCount]
    cases hBound : order.providerPaymentId with
    | none => simp
    | some paymentId =>
        simp only [pendingEvents, List.length_insertionSort]
        congr 1
        apply List.filter_congr
        intro row _
        simp [eq_comm]

/-- In every run from an empty store, every order's entries account for its
columns and the summary adds up. -/
theorem ledger_conservation (p : Platform) (environment : Environment) (calls : List Call) :
    (∀ order ∈ (Runs.run (step p) (empty environment) calls).orders.rows,
      (Runs.run (step p) (empty environment) calls).Conserved order) ∧
      (Runs.run (step p) (empty environment) calls).SummaryAdds := by
  have hReachable : Reachable p (Runs.run (step p) (empty environment) calls) :=
    ⟨environment, calls, rfl⟩
  have wellFormed := hReachable.wellFormed
  exact ⟨fun order hOrder => wellFormed.conserved hOrder, wellFormed.summaryAdds⟩

end Commerce

end VouchSpec
