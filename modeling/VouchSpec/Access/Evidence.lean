import VouchSpec.Access.Shop

/-! What a delivery leaves behind: the bindings of an order are written once
and are never shared, and a stored result is the envelope that was signed. -/

namespace VouchSpec

open Access

namespace Shop

/-- The rows of a state are still there, with all that was set in them. -/
structure Preserved (before after : Shop) : Prop where
  orders : ∀ order ∈ before.commerce.orders.rows, ∃ later ∈ after.commerce.orders.rows,
    order.Keeps later
  results : ∀ row ∈ before.access.orderBindings.rows, ∀ result, row.result = some result →
    ∃ later ∈ after.access.orderBindings.rows, later.orderId = row.orderId ∧ later.result = some result

/-- No two orders share what one order is bound to. -/
structure Injective (db : Commerce) : Prop where
  quote : ∀ first ∈ db.orders.rows, ∀ second ∈ db.orders.rows,
    first.quoteId = second.quoteId → first = second
  checkout : ∀ first ∈ db.orders.rows, ∀ second ∈ db.orders.rows, ∀ checkoutId,
    first.providerCheckoutId = some checkoutId → second.providerCheckoutId = some checkoutId →
      first = second
  payment : ∀ first ∈ db.orders.rows, ∀ second ∈ db.orders.rows, ∀ paymentId,
    first.providerPaymentId = some paymentId → second.providerPaymentId = some paymentId → first = second
  receipt : ∀ first ∈ db.orders.rows, ∀ second ∈ db.orders.rows, ∀ receiptId,
    first.receiptId = some receiptId → second.receiptId = some receiptId → first = second

/-- A stored result is the envelope that the delivered order has recorded. -/
def Authentic (p : Platform) (shop : Shop) : Prop :=
  ∀ row ∈ shop.access.orderBindings.rows, ∀ result, row.result = some result →
    ∃ order ∈ shop.commerce.orders.rows, order.orderId = row.orderId ∧ order.orderStatus = .delivered ∧
      result.sha256 = (p.sha256 result.body).hexdigest ∧ order.envelopeSha256 = some result.sha256

variable {p : Platform} {keyring : Keyring} {shop after : Shop}

/-- Two orders with the same value in a unique column are one. -/
private theorem order_eq {db : Commerce} {first second : OrderRow} (hFirst : first ∈ db.orders.rows)
    (hSecond : second ∈ db.orders.rows) (hClash : first.keys.Clash second.keys) : first = second := by
  apply Table.eq_of_clash hFirst hSecond hClash
  rcases hClash with h | h | h | ⟨hSome, h⟩ | ⟨hSome, h⟩ | ⟨hSome, h⟩
  · exact Or.inl h.symm
  · exact Or.inr (Or.inl h.symm)
  · exact Or.inr (Or.inr (Or.inl h.symm))
  · exact Or.inr (Or.inr (Or.inr (Or.inl ⟨h ▸ hSome, h.symm⟩)))
  · exact Or.inr (Or.inr (Or.inr (Or.inr (Or.inl ⟨h ▸ hSome, h.symm⟩))))
  · exact Or.inr (Or.inr (Or.inr (Or.inr (Or.inr ⟨h ▸ hSome, h.symm⟩))))

theorem commerce_injective (db : Commerce) : Injective db where
  quote first hFirst second hSecond h := order_eq hFirst hSecond (Or.inr (Or.inl h))
  checkout first hFirst second hSecond checkoutId h h' := by
    apply order_eq hFirst hSecond
    refine Or.inr (Or.inr (Or.inr (Or.inl ⟨?_, h.trans h'.symm⟩)))
    exact Option.isSome_iff_exists.mpr ⟨checkoutId, h⟩
  payment first hFirst second hSecond paymentId h h' := by
    apply order_eq hFirst hSecond
    refine Or.inr (Or.inr (Or.inr (Or.inr (Or.inl ⟨?_, h.trans h'.symm⟩))))
    exact Option.isSome_iff_exists.mpr ⟨paymentId, h⟩
  receipt first hFirst second hSecond receiptId h h' := by
    apply order_eq hFirst hSecond
    refine Or.inr (Or.inr (Or.inr (Or.inr (Or.inr ⟨?_, h.trans h'.symm⟩))))
    exact Option.isSome_iff_exists.mpr ⟨receiptId, h⟩

theorem Continues.preserved (continues : shop.Continues after) (wellFormed : shop.WellFormed p keyring) :
    shop.Preserved after where
  orders order hOrder := by
    have hFound := Commerce.order?_eq_some.mpr ⟨hOrder, rfl⟩
    obtain ⟨later, hLater, -, keeps⟩ := continues.commerce.order wellFormed.commerce hFound
    exact ⟨later, (Commerce.order?_eq_some.mp hLater).1, keeps⟩
  results row hRow result hResult := by
    have hFound := orderBinding?_eq_some.mpr ⟨hRow, rfl⟩
    obtain ⟨later, hLater, keeps⟩ := continues.access.orderBindings hFound
    have hSettled := keeps.result (by rw [hResult]; rfl)
    exact ⟨later, (orderBinding?_eq_some.mp hLater).1, keeps.orderId, hSettled.trans hResult⟩

theorem WellFormed.authentic (wellFormed : shop.WellFormed p keyring) : shop.Authentic p := by
  intro row hRow result hResult
  have bound := wellFormed.orders (orderBinding?_eq_some.mpr ⟨hRow, rfl⟩)
  obtain ⟨hSha, order, hOrder, hStatus, hEnvelope⟩ := bound.result result hResult
  obtain ⟨hMember, hId⟩ := Commerce.order?_eq_some.mp hOrder
  exact ⟨order, hMember, hId, hStatus, hSha, hEnvelope.trans (congrArg some hSha.symm)⟩

/-- In every run of the two stores, what an order is bound to is written once
and belongs to that order only, and a stored result is authentic for ever. -/
theorem evidence_immutable (p : Platform) (keyring : Keyring) (environment : Environment)
    (calls further : List Call) :
    (Runs.run (step p keyring) (empty environment) calls).Preserved
        (Runs.run (step p keyring) (empty environment) (calls ++ further)) ∧
      Injective (Runs.run (step p keyring) (empty environment) (calls ++ further)).commerce ∧
      (Runs.run (step p keyring) (empty environment) (calls ++ further)).Authentic p := by
  have hCalls : Reachable p keyring (Runs.run (step p keyring) (empty environment) calls) :=
    ⟨environment, calls, rfl⟩
  have hAll : Reachable p keyring (Runs.run (step p keyring) (empty environment) (calls ++ further)) :=
    ⟨environment, calls ++ further, rfl⟩
  have continues := continues_of_reaches hCalls.wellFormed ⟨further, (Runs.run_append _ _ _).symm⟩
  exact ⟨continues.preserved hCalls.wellFormed, commerce_injective _, hAll.wellFormed.authentic⟩

end Shop

end VouchSpec
