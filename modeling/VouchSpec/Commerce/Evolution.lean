import VouchSpec.Commerce.Moves

/-! Runs of the commerce store: what holds in every reachable state, and how
two states of one run are related. -/

namespace VouchSpec

namespace Commerce

/-- What holds of every reachable store. -/
structure WellFormed (p : Platform) (db : Commerce) : Prop where
  quotes_priced : ∀ row ∈ db.quotes.rows, Priced row
  event_digests : ∀ row ∈ db.events.rows, row.payloadDigest = (p.sha256 row.payload.payload).hexdigest
  event_orders : ∀ row ∈ db.events.rows, ∃ order ∈ db.orders.rows,
    order.providerPaymentId = some row.paymentId ∧ order.provider = row.payload.provider
  entry_orders : ∀ row ∈ db.entries.rows, (db.order? row.orderId).isSome
  cost_orders : ∀ row ∈ db.costRecords.rows, (db.order? row.orderId).isSome
  history_orders : ∀ row ∈ db.history, (db.order? row.orderId).isSome
  accounts : ∀ orderId, Account.Evolves none (db.account? orderId)

/-- How a later state of a run continues an earlier one. -/
structure Continues (before after : Commerce) : Prop where
  environment : after.environment = before.environment
  quotes : ∀ {quoteId row}, before.quote? quoteId = some row → after.quote? quoteId = some row
  accounts : ∀ orderId, Account.Evolves (before.account? orderId) (after.account? orderId)
  events : ∀ {eventId row}, before.event? eventId = some row → ∃ later,
    after.event? eventId = some later ∧ later.payload = row.payload ∧
      later.payloadDigest = row.payloadDigest ∧ later.receivedAt = row.receivedAt

theorem Continues.refl (db : Commerce) : Continues db db where
  environment := rfl
  quotes := id
  accounts _ := .refl
  events h := ⟨_, h, rfl, rfl, rfl⟩

theorem Continues.trans {first second third : Commerce} (left : Continues first second)
    (right : Continues second third) : Continues first third where
  environment := right.environment.trans left.environment
  quotes h := right.quotes (left.quotes h)
  accounts orderId := (left.accounts orderId).trans (right.accounts orderId)
  events h := by
    obtain ⟨middle, hMiddle, hPayload, hDigest, hReceived⟩ := left.events h
    obtain ⟨last, hLast, hPayload', hDigest', hReceived'⟩ := right.events hMiddle
    exact ⟨last, hLast, hPayload'.trans hPayload, hDigest'.trans hDigest, hReceived'.trans hReceived⟩

variable {p : Platform} {db after : Commerce}

theorem empty_wellFormed (environment : Environment) : WellFormed p (empty environment) where
  quotes_priced := by simp [empty]
  event_digests := by simp [empty]
  event_orders := by simp [empty]
  entry_orders := by simp [empty]
  cost_orders := by simp [empty]
  history_orders := by simp [empty]
  accounts _ := .refl

private theorem sameEvents (hEvents : after.events = db.events) {eventId : String} {row : EventRow}
    (hRow : db.event? eventId = some row) : ∃ later, after.event? eventId = some later ∧
      later.payload = row.payload ∧ later.payloadDigest = row.payloadDigest ∧
      later.receivedAt = row.receivedAt := by
  refine ⟨row, ?_, rfl, rfl, rfl⟩
  rw [← hRow]
  unfold event?
  rw [hEvents]

/-- An order that is new to the table leaves its account from nothing. -/
private theorem account?_opened (wellFormed : WellFormed p db)
    {orders : Table OrderRow.keys OrderKeys.Clash} {order : OrderRow}
    {sourceReference occurredAt : String} (hNew : order.New)
    (hRows : orders.rows = db.orders.rows ++ [order]) (other : String) :
    Account.Evolves (db.account? other) (({ db with orders }.addHistory
      [{ orderId := order.orderId, change := .order none .checkoutPending, sourceReference,
         occurredAt }]).account? other) := by
  have hFresh : db.order? order.orderId = none := by
    cases hFound : db.order? order.orderId with
    | none => rfl
    | some stored =>
        obtain ⟨hStored, hId⟩ := order?_eq_some.mp hFound
        have hDistinct := orders.distinct
        rw [hRows, List.pairwise_append] at hDistinct
        exact absurd (Or.inl hId) (hDistinct.2.2 stored hStored order (by simp))
  have hOrder : ({ db with orders } : Commerce).order? other =
      (db.order? other).or (if order.orderId = other then some order else none) := by
    unfold Commerce.order?
    rw [Table.find?_append_of_none hRows]
    simp only [decide_eq_true_eq]
  by_cases hOther : order.orderId = other
  · subst hOther
    have hAbsent : ∀ {orderId : String}, (db.order? orderId).isSome → orderId ≠ order.orderId := by
      rintro orderId hSome rfl
      rw [hFresh] at hSome
      cases hSome
    have hEntries : db.entriesOf order.orderId = [] := by
      refine List.filter_eq_nil_iff.mpr fun row hRow => ?_
      simpa using hAbsent (wellFormed.entry_orders row hRow)
    have hCosts : db.costRecords.rows.filter (fun row => row.orderId = order.orderId) = [] := by
      refine List.filter_eq_nil_iff.mpr fun row hRow => ?_
      simpa using hAbsent (wellFormed.cost_orders row hRow)
    have hHistory : db.historyOf order.orderId = [] := by
      refine List.filter_eq_nil_iff.mpr fun row hRow => ?_
      simpa using hAbsent (wellFormed.history_orders row hRow)
    have hBefore : db.account? order.orderId = none := by
      rw [account?, hFresh, Option.map_none]
    have hAfter : ({ db with orders }.addHistory
        [{ orderId := order.orderId, change := .order none .checkoutPending, sourceReference,
           occurredAt }]).account? order.orderId =
          some (Account.opened order sourceReference occurredAt) := by
      refine account?_eq_some.mpr ⟨?_, hEntries.symm, hCosts.symm, ?_⟩
      · exact hOrder.trans (by rw [hFresh, if_pos rfl]; rfl)
      · change _ = (db.history ++ _).filter _
        rw [List.filter_append]
        change _ = db.historyOf order.orderId ++ _
        rw [hHistory]
        simp [Account.opened]
    rw [hBefore, hAfter]
    exact .single (.opened hNew sourceReference occurredAt)
  · have hSame : ({ db with orders }.addHistory
        [{ orderId := order.orderId, change := .order none .checkoutPending, sourceReference,
           occurredAt }]).account? other = db.account? other := by
      have hHistory : (db.history ++
          [({ orderId := order.orderId, change := .order none .checkoutPending, sourceReference,
              occurredAt } : HistoryRow)]).filter (fun row => decide (row.orderId = other)) =
          db.historyOf other := by
        rw [List.filter_append]
        simp [historyOf, hOther]
      unfold account?
      change (({ db with orders } : Commerce).order? other).map _ = _
      rw [hOrder, if_neg hOther, Option.or_none]
      refine Option.map_congr fun row _ => ?_
      exact congrArg (fun history => Account.mk row _ _ history) hHistory
    rw [hSame]

/-- Every move continues the store. -/
theorem Move.continues (wellFormed : WellFormed p db) (move : Move p db after) :
    Continues db after := by
  cases move with
  | quoted _ hRows =>
      refine ⟨rfl, ?_, fun _ => .refl, fun h => ⟨_, h, rfl, rfl, rfl⟩⟩
      intro quoteId row hRow
      refine (Table.find?_append_of_none hRows).trans ?_
      change (db.quote? quoteId).or _ = _
      rw [hRow, Option.some_or]
  | opened hNew hRows =>
      exact ⟨rfl, id, account?_opened wellFormed hNew hRows, fun h => ⟨_, h, rfl, rfl, rfl⟩⟩
  | affected hAccount hAllowed hAffects hEvents =>
      refine ⟨hAffects.environment, ?_, hAffects.evolves hAccount hAllowed, sameEvents hEvents⟩
      intro quoteId row hRow
      unfold quote? at *
      rw [hAffects.quotes, hRow]
  | arrived _ _ hRows =>
      refine ⟨rfl, id, fun _ => .refl, ?_⟩
      intro eventId row hRow
      refine ⟨row, ?_, rfl, rfl, rfl⟩
      refine (Table.find?_append_of_none hRows).trans ?_
      change (db.event? eventId).or _ = _
      rw [hRow, Option.some_or]
  | settled =>
      refine ⟨rfl, id, fun _ => .refl, ?_⟩
      intro eventId row hRow
      refine ⟨_, (Table.find?_changed ?_).trans (congrArg (Option.map _) hRow), ?_⟩
      · intro other _
        rfl
      · dsimp only
        split <;> exact ⟨rfl, rfl, rfl⟩

theorem WellFormed.account_regular (wellFormed : WellFormed p db) {orderId : String}
    {account : Account} (hAccount : db.account? orderId = some account) : account.order.Regular := by
  have hEvolves := wellFormed.accounts orderId
  rw [hAccount] at hEvolves
  exact hEvolves.regular

theorem WellFormed.order_regular (wellFormed : WellFormed p db) {order : OrderRow}
    (hOrder : order ∈ db.orders.rows) : order.Regular := by
  obtain ⟨account, hAccount, rfl⟩ := account?_of_order (order?_eq_some.mpr ⟨hOrder, rfl⟩)
  exact wellFormed.account_regular hAccount

/-- The account of an order in a later state. -/
theorem Continues.account (continues : Continues db after) (wellFormed : WellFormed p db)
    {orderId : String} {account : Account} (hAccount : db.account? orderId = some account) :
    ∃ later, after.account? orderId = some later ∧ later.order.Regular ∧
      account.order.Keeps later.order := by
  have hEvolves := continues.accounts orderId
  rw [hAccount] at hEvolves
  exact hEvolves.keeps (wellFormed.account_regular hAccount)

/-- An order of an earlier state is still there and keeps its columns. -/
theorem Continues.order (continues : Continues db after) (wellFormed : WellFormed p db)
    {orderId : String} {order : OrderRow} (hOrder : db.order? orderId = some order) :
    ∃ later, after.order? orderId = some later ∧ later.Regular ∧ order.Keeps later := by
  obtain ⟨account, hAccount, rfl⟩ := account?_of_order hOrder
  obtain ⟨later, hLater, regular, keeps⟩ := continues.account wellFormed hAccount
  exact ⟨later.order, (account?_eq_some.mp hLater).1, regular, keeps⟩

theorem Continues.order_isSome (continues : Continues db after) (wellFormed : WellFormed p db)
    {orderId : String} (hSome : (db.order? orderId).isSome) : (after.order? orderId).isSome := by
  obtain ⟨order, hOrder⟩ := Option.isSome_iff_exists.mp hSome
  obtain ⟨later, hLater, -⟩ := continues.order wellFormed hOrder
  rw [hLater]
  rfl

/-- A bound payment stays bound to its order. -/
theorem Continues.orderByPayment (continues : Continues db after) (wellFormed : WellFormed p db)
    {order : OrderRow} {paymentId : String} (hOrder : order ∈ db.orders.rows)
    (hBound : order.providerPaymentId = some paymentId) :
    ∃ later ∈ after.orders.rows, later.providerPaymentId = some paymentId ∧ order.Keeps later := by
  obtain ⟨later, hLater, -, keeps⟩ := continues.order wellFormed (order?_eq_some.mpr ⟨hOrder, rfl⟩)
  refine ⟨later, (order?_eq_some.mp hLater).1, ?_, keeps⟩
  rw [keeps.payment (by rw [hBound]; rfl), hBound]

/-- Every move keeps the store well formed. -/
theorem Move.wellFormed (wellFormed : WellFormed p db) (move : Move p db after) :
    WellFormed p after := by
  have continues := move.continues wellFormed
  have hAccounts : ∀ orderId, Account.Evolves none (after.account? orderId) := fun orderId =>
    (wellFormed.accounts orderId).trans (continues.accounts orderId)
  have hOwner : ∀ {orderId}, (db.order? orderId).isSome → (after.order? orderId).isSome :=
    continues.order_isSome wellFormed
  have hEvents : ∀ row ∈ db.events.rows, ∃ order ∈ after.orders.rows,
      order.providerPaymentId = some row.paymentId ∧ order.provider = row.payload.provider := by
    intro row hRow
    obtain ⟨order, hOrder, hBound, hProvider⟩ := wellFormed.event_orders row hRow
    obtain ⟨later, hLater, hStill, keeps⟩ := continues.orderByPayment wellFormed hOrder hBound
    exact ⟨later, hLater, hStill, keeps.provider.trans hProvider⟩
  cases move with
  | quoted hPriced hRows =>
      refine { wellFormed with quotes_priced := ?_, accounts := hAccounts }
      intro row hRow
      change row ∈ Table.rows _ at hRow
      rw [hRows, List.mem_append, List.mem_singleton] at hRow
      rcases hRow with hOld | rfl
      · exact wellFormed.quotes_priced row hOld
      · exact hPriced
  | @opened orders order sourceReference occurredAt hNew hRows =>
      refine { wellFormed with
        event_orders := hEvents
        entry_orders := fun row hRow => hOwner (wellFormed.entry_orders row hRow)
        cost_orders := fun row hRow => hOwner (wellFormed.cost_orders row hRow)
        history_orders := ?_
        accounts := hAccounts }
      intro row hRow
      rcases List.mem_append.mp hRow with hOld | hCreated
      · exact hOwner (wellFormed.history_orders row hOld)
      · rw [List.mem_singleton.mp hCreated]
        have hStored : ({ db with orders }.addHistory [({ orderId := order.orderId, change := .order none .checkoutPending, sourceReference, occurredAt } : HistoryRow)]).order? order.orderId = some order :=
          order?_eq_some.mpr ⟨by change order ∈ orders.rows; simp [hRows], rfl⟩
        rw [hStored]
        rfl
  | @affected _ orderId account effect hAccount hAllowed hAffects hSame =>
      have hHere : (after.order? orderId).isSome := by
        refine hOwner ?_
        rw [(account?_eq_some.mp hAccount).1]
        rfl
      refine {
        quotes_priced := by rw [hAffects.quotes]; exact wellFormed.quotes_priced
        event_digests := by rw [hSame]; exact wellFormed.event_digests
        event_orders := by rw [hSame]; exact hEvents
        entry_orders := ?_
        cost_orders := ?_
        history_orders := ?_
        accounts := hAccounts }
      · intro row hRow
        rw [hAffects.entries, List.mem_append] at hRow
        rcases hRow with hOld | hAdded
        · exact hOwner (wellFormed.entry_orders row hOld)
        · rw [hAffects.owner.1 row hAdded]
          exact hHere
      · intro row hRow
        rw [hAffects.costs, List.mem_append] at hRow
        rcases hRow with hOld | hAdded
        · exact hOwner (wellFormed.cost_orders row hOld)
        · rw [hAffects.owner.2.1 row hAdded]
          exact hHere
      · intro row hRow
        rw [hAffects.history, List.mem_append] at hRow
        rcases hRow with hOld | hAdded
        · exact hOwner (wellFormed.history_orders row hOld)
        · rw [hAffects.owner.2.2 row hAdded]
          exact hHere
  | @arrived events event order received hOrder hProvider hRows =>
      obtain ⟨hStored, hBound⟩ := orderByPayment?_eq_some.mp hOrder
      refine { wellFormed with event_digests := ?_, event_orders := ?_, accounts := hAccounts }
      all_goals
        intro row hRow
        change row ∈ events.rows at hRow
        rw [hRows, List.mem_append, List.mem_singleton] at hRow
        rcases hRow with hOld | rfl
      · exact wellFormed.event_digests row hOld
      · rfl
      · exact hEvents row hOld
      · exact ⟨order, hStored, hBound, hProvider⟩
  | settled =>
      refine { wellFormed with event_digests := ?_, event_orders := ?_, accounts := hAccounts }
      all_goals
        intro row hRow
        rcases Table.mem_changed.mp hRow with ⟨old, hOld, -, rfl⟩ | ⟨hOld, -⟩
      · exact wellFormed.event_digests old hOld
      · exact wellFormed.event_digests row hOld
      · exact hEvents old hOld
      · exact hEvents row hOld

theorem Moves.wellFormed_continues (wellFormed : WellFormed p db) (moves : Moves p db after) :
    WellFormed p after ∧ Continues db after := by
  induction moves with
  | refl => exact ⟨wellFormed, .refl db⟩
  | tail _ move ih => exact ⟨move.wellFormed ih.1, ih.2.trans (move.continues ih.1)⟩

theorem step_wellFormed (wellFormed : WellFormed p db) (call : Call) :
    WellFormed p (db.step p call) :=
  (step_moves wellFormed.quotes_priced call).wellFormed_continues wellFormed |>.1

theorem step_continues (wellFormed : WellFormed p db) (call : Call) :
    Continues db (db.step p call) :=
  (step_moves wellFormed.quotes_priced call).wellFormed_continues wellFormed |>.2

theorem Reachable.step (reachable : Reachable p db) (call : Call) : Reachable p (db.step p call) := by
  obtain ⟨environment, reaches⟩ := reachable
  exact ⟨environment, reaches.trans (.single db call)⟩

/-- Every reachable store is well formed. -/
theorem Reachable.wellFormed (reachable : Reachable p db) : WellFormed p db := by
  obtain ⟨environment, reaches⟩ := reachable
  exact reaches.invariant (WellFormed p) (fun _ call h => step_wellFormed h call) (empty_wellFormed environment)

/-- Two states of one run are related as the moves between them allow. -/
theorem continues_of_reaches (wellFormed : WellFormed p db) (reaches : Runs.Reaches (step p) db after) :
    Continues db after :=
  reaches.related (WellFormed p) Continues (fun _ call h => step_wellFormed h call) Continues.refl
    (fun _ _ _ left right => left.trans right) (fun _ call h => step_continues h call) wellFormed

end Commerce

end VouchSpec
