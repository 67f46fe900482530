import Mathlib.Logic.Relation
import VouchSpec.Commerce.Store

/-! The life of one order. An account is an order with everything recorded for
it; the store's operations move one account at a time, by the steps below. -/

namespace VouchSpec

/-- An order with its financial entries, its cost records and its history. -/
structure Account where
  order : OrderRow
  entries : List EntryRow
  costs : List CostRow
  history : List HistoryRow

/-- A change of an order's columns, and the rows recorded with it. -/
structure Effect where
  change : OrderRow → OrderRow
  entries : List EntryRow := []
  costs : List CostRow := []
  history : List HistoryRow := []

namespace Effect

/-- A checkout is attached, perhaps with its payment. -/
def checkout (order : OrderRow) (checkoutId : String) (payment : Option String)
    (occurredAt : String) : Effect where
  change row := { row with providerCheckoutId := some checkoutId, providerPaymentId := payment,
                           orderStatus := .paymentPending, updatedAt := occurredAt }
  history := [{ orderId := order.orderId, change := .order (some order.orderStatus) .paymentPending,
                sourceReference := checkoutId, occurredAt }]

/-- A payment is bound to the attached checkout. -/
def binding (paymentId occurredAt : String) : Effect where
  change row := { row with providerPaymentId := some paymentId, updatedAt := occurredAt }

/-- A provider event is applied. -/
def payment (order : OrderRow) (event : ProviderEvent) : Effect where
  change := OrderRow.advance event
  entries := event.entries order.orderId
  history := event.history order

/-- The direct costs are recorded. -/
def costing (order : OrderRow) (idempotencyKey timestamp : String) (amounts : List (DirectCost × Nat)) :
    Effect where
  change row := { row with directCostsRecorded := true, updatedAt := timestamp }
  entries := Commerce.costEntries order.orderId idempotencyKey timestamp amounts
  costs := [{ orderId := order.orderId, idempotencyKey, costs := amounts, recordedAt := timestamp }]

/-- Fulfillment begins or fails. -/
def fulfillment (order : OrderRow) (target : OrderStatus) (deliveryStatus : DeliveryStatus)
    (sourceReference occurredAt : String) : Effect where
  change row := { row with orderStatus := target, deliveryStatus, updatedAt := occurredAt }
  history := [{ orderId := order.orderId, change := .order (some order.orderStatus) target,
                sourceReference, occurredAt }]

/-- The order is delivered with this evidence. -/
def delivery (order : OrderRow) (evidence : Commerce.Evidence) (sourceReference occurredAt : String) :
    Effect where
  change row := { row with orderStatus := .delivered, receiptId := some evidence.receiptId,
                           receiptSha256 := some evidence.receiptSha256,
                           envelopeSha256 := some evidence.envelopeSha256,
                           signingKeyid := some evidence.signingKeyid,
                           deliveryStatus := .delivered, updatedAt := occurredAt }
  history := [{ orderId := order.orderId, change := .order (some order.orderStatus) .delivered,
                sourceReference, occurredAt }]

end Effect

/-- The columns of an order that has just been created. -/
structure OrderRow.New (order : OrderRow) : Prop where
  orderStatus : order.orderStatus = .checkoutPending
  paymentStatus : order.paymentStatus = .pending
  quotedAmount : order.quotedAmountMinor = legacyStripeAmountMinor
  currency : order.currency = freshValidationCurrency
  amounts : order.collectedAmountMinor = 0 ∧ order.refundedAmountMinor = 0 ∧
    order.processingFeeMinor = 0
  bindings : order.providerCheckoutId = none ∧ order.providerPaymentId = none
  evidence : order.receiptId = none ∧ order.receiptSha256 = none ∧ order.envelopeSha256 = none ∧
    order.signingKeyid = none
  flags : order.directCostsRecorded = false ∧ order.countsForGoal = false

namespace Account

/-- The account of an order that has just been created. -/
def opened (order : OrderRow) (sourceReference occurredAt : String) : Account where
  order := order
  entries := []
  costs := []
  history := [{ orderId := order.orderId, change := .order none .checkoutPending, sourceReference,
                occurredAt }]

/-- The account after an effect. -/
def after (account : Account) (effect : Effect) : Account where
  order := effect.change account.order
  entries := account.entries ++ effect.entries
  costs := account.costs ++ effect.costs
  history := account.history ++ effect.history

@[simp] theorem after_order (account : Account) (effect : Effect) :
    (account.after effect).order = effect.change account.order := rfl

@[simp] theorem after_entries (account : Account) (effect : Effect) :
    (account.after effect).entries = account.entries ++ effect.entries := rfl

@[simp] theorem after_costs (account : Account) (effect : Effect) :
    (account.after effect).costs = account.costs ++ effect.costs := rfl

@[simp] theorem after_history (account : Account) (effect : Effect) :
    (account.after effect).history = account.history ++ effect.history := rfl

/-- The effects that an operation may have on an account, with the checks
that it makes first. -/
inductive Allowed (account : Account) : Effect → Prop where
  | checkout (checkoutId : String) (payment : Option String) (occurredAt : String)
      (hStatus : account.order.orderStatus = .checkoutPending)
      (hFree : account.order.providerCheckoutId = none) :
      Allowed account (.checkout account.order checkoutId payment occurredAt)
  | binding (paymentId occurredAt : String) (hCheckout : account.order.providerCheckoutId.isSome)
      (hFree : account.order.providerPaymentId = none) :
      Allowed account (.binding paymentId occurredAt)
  | payment (event : ProviderEvent) (hBound : account.order.providerPaymentId = some event.paymentId)
      (hMatches : account.order.Matches event) (hAdmits : account.order.Admits event) :
      Allowed account (.payment account.order event)
  | costing (idempotencyKey timestamp : String) (amounts : List (DirectCost × Nat))
      (hAmounts : amounts.map Prod.fst = DirectCost.all)
      (hOpen : account.order.directCostsRecorded = false) :
      Allowed account (.costing account.order idempotencyKey timestamp amounts)
  | fulfillment (target : OrderStatus) (deliveryStatus : DeliveryStatus)
      (sourceReference occurredAt : String) (hTarget : target = .running ∨ target = .fulfillmentFailed)
      (hEdge : target ∈ orderTransitions account.order.orderStatus) :
      Allowed account (.fulfillment account.order target deliveryStatus sourceReference occurredAt)
  | delivery (evidence : Commerce.Evidence) (sourceReference occurredAt : String)
      (hCosts : account.order.directCostsRecorded = true)
      (hEdge : .delivered ∈ orderTransitions account.order.orderStatus) :
      Allowed account (.delivery account.order evidence sourceReference occurredAt)

/-- One step in the life of an order, from before its creation on. -/
inductive Step : Option Account → Option Account → Prop where
  | opened {order : OrderRow} (hNew : order.New) (sourceReference occurredAt : String) :
      Step none (some (opened order sourceReference occurredAt))
  | effect {account : Account} {effect : Effect} (hAllowed : account.Allowed effect) :
      Step (some account) (some (account.after effect))

/-- Any number of steps. -/
abbrev Evolves : Option Account → Option Account → Prop := Relation.ReflTransGen Step

/-- A property that new accounts have and every allowed effect keeps holds
throughout the life of an order. -/
theorem Evolves.invariant (property : Account → Prop)
    (hOpened : ∀ {order : OrderRow}, order.New → ∀ sourceReference occurredAt,
      property (opened order sourceReference occurredAt))
    (hEffect : ∀ {account : Account} {effect : Effect}, account.Allowed effect → property account →
      property (account.after effect))
    {first last : Option Account} (evolves : Evolves first last)
    (hFirst : ∀ account ∈ first, property account) : ∀ account ∈ last, property account := by
  induction evolves with
  | refl => exact hFirst
  | tail _ step ih =>
      rintro account ⟨⟩
      cases step with
      | opened hNew sourceReference occurredAt => exact hOpened hNew sourceReference occurredAt
      | effect hAllowed => exact hEffect hAllowed (ih _ rfl)

/-- An order that exists never disappears, and what every allowed effect
keeps between the accounts before and after it holds between any two. -/
theorem Evolves.related (property : Account → Prop) (related : Account → Account → Prop)
    (hEffect : ∀ {account : Account} {effect : Effect}, account.Allowed effect → property account →
      property (account.after effect))
    (hRefl : ∀ account, related account account)
    (hTrans : ∀ {first second third}, related first second → related second third →
      related first third)
    (hRelated : ∀ {account : Account} {effect : Effect}, account.Allowed effect → property account →
      related account (account.after effect))
    {first : Account} {last : Option Account} (evolves : Evolves (some first) last)
    (hFirst : property first) :
    ∃ account, last = some account ∧ property account ∧ related first account := by
  induction evolves with
  | refl => exact ⟨first, rfl, hFirst, hRefl first⟩
  | tail _ step ih =>
      obtain ⟨account, rfl, hProperty, hSoFar⟩ := ih
      cases step with
      | effect hAllowed =>
          exact ⟨_, rfl, hEffect hAllowed hProperty, hTrans hSoFar (hRelated hAllowed hProperty)⟩

end Account

namespace Commerce

/-- Everything recorded for an order. -/
def account? (db : Commerce) (orderId : String) : Option Account :=
  (db.order? orderId).map fun order =>
    { order, entries := db.entriesOf orderId
      costs := db.costRecords.rows.filter fun row => row.orderId = orderId
      history := db.historyOf orderId }

/-- The tables after an effect on one order. -/
structure Affects (before after : Commerce) (orderId : String) (effect : Effect) : Prop where
  environment : after.environment = before.environment
  quotes : after.quotes = before.quotes
  orders : after.orders.rows =
    Table.changed before.orders.rows (fun row => row.orderId = orderId) effect.change
  entries : after.entries.rows = before.entries.rows ++ effect.entries
  costs : after.costRecords.rows = before.costRecords.rows ++ effect.costs
  history : after.history = before.history ++ effect.history
  change_orderId : ∀ row, (effect.change row).orderId = row.orderId
  owner : (∀ row ∈ effect.entries, row.orderId = orderId) ∧
    (∀ row ∈ effect.costs, row.orderId = orderId) ∧ ∀ row ∈ effect.history, row.orderId = orderId

theorem account?_eq_some {db : Commerce} {orderId : String} {account : Account} :
    db.account? orderId = some account ↔
      db.order? orderId = some account.order ∧ account.entries = db.entriesOf orderId ∧
        account.costs = db.costRecords.rows.filter (fun row => row.orderId = orderId) ∧
        account.history = db.historyOf orderId := by
  unfold account?
  rw [Option.map_eq_some_iff]
  constructor
  · rintro ⟨order, hOrder, rfl⟩
    exact ⟨hOrder, rfl, rfl, rfl⟩
  · rintro ⟨hOrder, hEntries, hCosts, hHistory⟩
    refine ⟨account.order, hOrder, ?_⟩
    cases account
    simp_all

theorem Affects.order? {before after : Commerce} {orderId : String} {effect : Effect}
    (affects : Affects before after orderId effect) (other : String) :
    after.order? other =
      if other = orderId then (before.order? other).map effect.change else before.order? other := by
  unfold Commerce.order? Table.find?
  rw [affects.orders, Table.find?_changed]
  · by_cases hOther : other = orderId
    · rw [if_pos hOther]
      refine Option.map_congr ?_
      intro row hRow
      have hId := List.find?_some hRow
      simp only [decide_eq_true_eq] at hId
      rw [if_pos (by simp [hId, hOther])]
    · rw [if_neg hOther]
      refine (Option.map_congr ?_).trans Option.map_id'
      intro row hRow
      have hId := List.find?_some hRow
      simp only [decide_eq_true_eq] at hId
      rw [if_neg (by simp [hId, hOther])]
  · intro row hRow
    rw [affects.change_orderId]

private theorem filter_owned {Row : Type} (orderIdOf : Row → String) (rows added : List Row)
    (orderId other : String) (hOwner : ∀ row ∈ added, orderIdOf row = orderId) :
    (rows ++ added).filter (fun row => decide (orderIdOf row = other)) =
      rows.filter (fun row => decide (orderIdOf row = other)) ++
        if other = orderId then added else [] := by
  rw [List.filter_append]
  congr 1
  split
  · next hOther => exact List.filter_eq_self.mpr fun row hRow => by simp [hOwner row hRow, hOther]
  · next hOther =>
      refine List.filter_eq_nil_iff.mpr fun row hRow => ?_
      simp only [hOwner row hRow, decide_eq_true_eq]
      exact fun h => hOther h.symm

/-- An effect on one order moves its account and no other. -/
theorem Affects.account? {before after : Commerce} {orderId : String} {effect : Effect}
    (affects : Affects before after orderId effect) (other : String) :
    after.account? other =
      if other = orderId then (before.account? other).map (·.after effect)
      else before.account? other := by
  unfold Commerce.account? Commerce.entriesOf Commerce.historyOf
  rw [affects.order?, affects.entries, affects.costs, affects.history,
    filter_owned EntryRow.orderId _ _ orderId other affects.owner.1,
    filter_owned CostRow.orderId _ _ orderId other affects.owner.2.1,
    filter_owned HistoryRow.orderId _ _ orderId other affects.owner.2.2]
  split
  · rw [Option.map_map, Option.map_map]
    rfl
  · simp only [List.append_nil]

/-- An allowed effect is a step of its account and leaves the others alone. -/
theorem Affects.evolves {before after : Commerce} {orderId : String} {effect : Effect}
    (affects : Affects before after orderId effect) {account : Account}
    (hAccount : before.account? orderId = some account) (hAllowed : account.Allowed effect)
    (other : String) : Account.Evolves (before.account? other) (after.account? other) := by
  rw [affects.account?]
  split
  · next hOther =>
      subst hOther
      rw [hAccount]
      exact .single (.effect hAllowed)
  · exact .refl

end Commerce

end VouchSpec
