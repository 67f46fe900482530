import VouchSpec.Library.Outline
import VouchSpec.Paid.Chronicle

/-! Publications side by side: any number of calls of `publish`, each with its own
envelope, among the calls of the commerce store, in any interleaving of their steps. -/

namespace VouchSpec

namespace Paid

open Signing Lifecycle Program

/-- What a caller publishes, and when. -/
structure Request where
  envelopeBytes : Bytes
  trustedRootJwk : Json
  publishedAt : Int

/-- A step of one of the callers, or a call of the commerce store. -/
inductive Step (Caller : Type) where
  | publish (caller : Caller)
  | commerce (call : Commerce.Call)

abbrev Desk (Caller : Type) := Pool Caller Store Raised PublicationView

def Store.commerceStep (p : Platform) (store : Store) (call : Commerce.Call) : Store :=
  { store with commerce := store.commerce.step p call }

namespace Desk

variable {Caller Key : Type} (t : Toolkit) (scheme : Ed25519 Key)

/-- The callers before their first steps. -/
def opening (store : Store) (requests : Caller → Request) : Desk Caller where
  state := store
  threads caller := publish t scheme (requests caller).envelopeBytes (requests caller).trustedRootJwk
    (requests caller).publishedAt

variable [DecidableEq Caller]

def step (p : Platform) (desk : Desk Caller) : Step Caller → Desk Caller
  | .publish caller => desk.advance caller
  | .commerce call => { desk with state := desk.state.commerceStep p call }

def run (p : Platform) (desk : Desk Caller) (steps : List (Step Caller)) : Desk Caller := Runs.run (step p) desk steps

end Desk

/-- The evidence of an order is what its columns hold. -/
structure Delivered.Of (item : Delivered) (order : OrderRow) : Prop where
  orderId : item.orderId = order.orderId
  delivered : order.orderStatus = .delivered
  receiptId : order.receiptId = some item.receiptId
  envelopeSha256 : order.envelopeSha256 = some item.envelopeSha256
  signingKeyid : order.signingKeyid = some item.signingKeyid

section
variable {db : Commerce} {orders : List Delivered}

theorem of_evidence {view : OrderView} {order : OrderRow} {item : Delivered} (shows : view.Shows order)
    (hStatus : order.orderStatus = .delivered) (h : evidence? view = some item) : item.Of order := by
  simp only [evidence?, Option.bind_eq_bind, Option.bind_eq_some_iff] at h
  obtain ⟨receiptId, hReceipt, receiptSha256, -, envelopeSha256, hEnvelope, signingKeyid, hKeyid, h⟩ := h
  split at h
  · cases h
  obtain rfl := Option.some.inj h
  exact ⟨shows.orderId, hStatus, shows.receiptId ▸ hReceipt, shows.envelopeSha256 ▸ hEnvelope,
    shows.signingKeyid ▸ hKeyid⟩

/-- The delivered orders, one by one. -/
theorem deliveredOrders_related (h : deliveredOrders db = .ok orders) :
    (∀ item ∈ orders, ∃ order ∈ db.orders.rows, item.Of order) ∧
      ∀ order ∈ db.orders.rows, order.orderStatus = .delivered → ∃ item ∈ orders, item.Of order := by
  simp only [deliveredOrders, listDeliveredOrders, Except.bind_eq_ok_iff] at h
  obtain ⟨views, hViews, hItems⟩ := h
  have hRows := Except.forall₂_of_mapM hViews
  have hEvidence := Except.forall₂_of_mapM hItems
  have hShown : ∀ row ∈ db.orders.rows, ∀ view, db.orderView row.orderId = .ok view → view.Shows row := by
    intro row hRow view hView
    obtain ⟨order, hOrder, shows⟩ := Commerce.orderView_shows hView
    obtain rfl := Option.some.inj ((Commerce.order?_eq_some.mpr ⟨hRow, rfl⟩).symm.trans hOrder)
    exact shows
  constructor
  · intro item hItem
    obtain ⟨view, hView, hItemOf⟩ := hEvidence.exists_left hItem
    obtain ⟨row, hRow, hViewOf⟩ := hRows.exists_left hView
    rw [List.mem_insertionSort, List.mem_filter] at hRow
    exact ⟨row, hRow.1, of_evidence (hShown row hRow.1 view hViewOf) (of_decide_eq_true hRow.2)
      (Except.ofOption_eq_ok_iff.mp hItemOf)⟩
  · intro order hOrder hStatus
    have hListed : order ∈ (db.orders.rows.filter fun order => order.orderStatus = .delivered).insertionSort
        deliveredBefore := by
      rw [List.mem_insertionSort, List.mem_filter]
      exact ⟨hOrder, decide_eq_true hStatus⟩
    obtain ⟨view, hView, hViewOf⟩ := hRows.flip.exists_left hListed
    obtain ⟨item, hItem, hItemOf⟩ := hEvidence.flip.exists_left hView
    exact ⟨item, hItem, of_evidence (hShown order hOrder view hViewOf) hStatus (Except.ofOption_eq_ok_iff.mp hItemOf)⟩

/-- The orders that are read are delivered, with their receipts. -/
theorem issued_of_deliveredOrders (h : deliveredOrders db = .ok orders) {item : Delivered} (hItem : item ∈ orders) :
    db.Issued item.orderId item.receiptId := by
  obtain ⟨order, hOrder, itemOf⟩ := (deliveredOrders_related h).1 item hItem
  exact ⟨order, Commerce.order?_eq_some.mpr ⟨hOrder, itemOf.orderId.symm⟩, itemOf.delivered, itemOf.receiptId⟩

/-- No receipt of a delivered order is left out. -/
theorem mem_deliveredOrders (h : deliveredOrders db = .ok orders) {orderId receiptId : String}
    (issued : db.Issued orderId receiptId) : receiptId ∈ orders.map Delivered.receiptId := by
  obtain ⟨order, hOrder, hStatus, hReceipt⟩ := issued
  obtain ⟨item, hItem, itemOf⟩ := (deliveredOrders_related h).2 order (Commerce.order?_eq_some.mp hOrder).1 hStatus
  obtain rfl := Option.some.inj (hReceipt.symm.trans itemOf.receiptId)
  exact List.mem_map_of_mem hItem

end

/-- The store of a run that began with an empty lifecycle. -/
structure Sound {Key : Type} (t : Toolkit) (scheme : Ed25519 Key) (store : Store) : Prop where
  chronicle : Chronicle t scheme store
  reachable : store.commerce.Reachable t.toPlatform

/-- What every step keeps of a store: the publications, and the delivered orders. -/
structure Extends (before after : Store) : Prop where
  publications : before.publications.rows <+: after.publications.rows
  issued : ∀ orderId receiptId, before.commerce.Issued orderId receiptId → after.commerce.Issued orderId receiptId

theorem Extends.refl (store : Store) : Extends store store := ⟨List.prefix_rfl, fun _ _ => id⟩

theorem Extends.trans {first second third : Store} (left : Extends first second) (right : Extends second third) :
    Extends first third :=
  ⟨left.publications.trans right.publications,
    fun orderId receiptId issued => right.issued _ _ (left.issued orderId receiptId issued)⟩

section
variable {Key : Type} {t : Toolkit} {scheme : Ed25519 Key} {store after : Store} {submission : Submission}
  {orders : List Delivered} {request : Request}

theorem submit_authentic (h : submit t scheme request.envelopeBytes request.trustedRootJwk request.publishedAt =
    .ok submission) : (publicationOf t submission).Authentic t scheme := by
  simp only [submit, Except.bind_eq_ok_iff, require_eq_ok, exists_const, Except.pure_eq_ok_iff, Prod.exists] at h
  obtain ⟨-, feed, payload, hFeed, rootKeyid, hRoot, hTime, rfl⟩ := h
  refine ⟨⟨_, payload, hRoot, hFeed, rfl⟩, rfl, ?_⟩
  simp only [not_or, not_lt] at hTime
  exact hTime.2.2

/-- The orders of a submission are delivered when they are read. -/
theorem issued_of_covered {db : Commerce} (h : coveredOrders submission db = .ok orders) {item : Delivered}
    (hItem : item ∈ orders) : db.Issued item.orderId item.receiptId := by
  simp only [coveredOrders, Except.bind_eq_ok_iff, require_eq_ok, exists_const, Except.pure_eq_ok_iff] at h
  obtain ⟨orders, hOrders, -, _, -, -, rfl⟩ := h
  exact issued_of_deliveredOrders hOrders hItem

/-- The write transaction keeps the store sound, whenever its orders were read. -/
theorem Sound.importFeed (sound : Sound t scheme store) (authentic : (publicationOf t submission).Authentic t scheme)
    (hIssued : ∀ item ∈ orders, store.commerce.Issued item.orderId item.receiptId) {view : PublicationView}
    (h : importFeed t submission orders store = .ok (after, view)) : Sound t scheme after ∧ Extends store after := by
  rcases importFeed_cases authentic.distinct h with rfl | imported
  · exact ⟨sound, .refl after⟩
  · refine ⟨⟨sound.chronicle.imported_keeps imported authentic hIssued, ?_⟩, ?_, ?_⟩
    · rw [imported.commerce]
      exact sound.reachable
    · rw [imported.publications]
      exact List.prefix_append _ _
    · intro orderId receiptId
      rw [imported.commerce]
      exact id

theorem Sound.commerceStep (sound : Sound t scheme store) (call : Commerce.Call) :
    Sound t scheme (store.commerceStep t.toPlatform call) ∧ Extends store (store.commerceStep t.toPlatform call) := by
  have hIssued : ∀ orderId receiptId, store.commerce.Issued orderId receiptId →
      (store.commerce.step t.toPlatform call).Issued orderId receiptId :=
    fun orderId receiptId issued => issued.step sound.reachable.wellFormed call
  exact ⟨⟨sound.chronicle.withCommerce hIssued, sound.reachable.step call⟩, List.prefix_rfl, hIssued⟩

/-- The outline of a part of a call. -/
abbrev Keeps (t : Toolkit) (scheme : Ed25519 Key) {Value : Type} (pre : Store → Prop) (returned : Value → Store → Prop)
    (program : Program Store Raised Value) : Prop :=
  Outline (Sound t scheme) Extends Extends (Ends returned fun _ => True) pre program

theorem keeps_submit (request : Request) :
    Keeps t scheme (fun _ => True) (fun submission _ => (publicationOf t submission).Authentic t scheme)
      (.check (submit t scheme request.envelopeBytes request.trustedRootJwk request.publishedAt)) := by
  refine .check fun store _ _ => ?_
  cases hSubmit : submit t scheme request.envelopeBytes request.trustedRootJwk request.publishedAt with
  | error error => trivial
  | ok submission => exact submit_authentic hSubmit

/-- The orders that have been read stay delivered. -/
theorem keeps_read (submission : Submission) :
    Keeps t scheme (fun _ => (publicationOf t submission).Authentic t scheme)
      (fun orders store => (publicationOf t submission).Authentic t scheme ∧
        ∀ item ∈ orders, store.commerce.Issued item.orderId item.receiptId)
      (.read fun store => coveredOrders submission store.commerce) := by
  refine .read Extends.refl ?_ (Stable.ends ?_ fun _ _ _ _ _ _ => trivial)
  · intro store _ authentic
    cases hOrders : coveredOrders submission store.commerce with
    | error error => trivial
    | ok orders => exact ⟨authentic, fun item hItem => issued_of_covered hOrders hItem⟩
  · intro orders before after _ _ extended h
    exact ⟨h.1, fun item hItem => extended.issued _ _ (h.2 item hItem)⟩

theorem keeps_import (submission : Submission) (orders : List Delivered) :
    Keeps t scheme (fun store => (publicationOf t submission).Authentic t scheme ∧
        ∀ item ∈ orders, store.commerce.Issued item.orderId item.receiptId) (fun _ _ => True)
      (.call (importFeed t submission orders)) := by
  refine .call Extends.refl ?_ (fun _ _ _ => trivial) (Stable.ends ?_ fun _ _ _ _ _ _ => trivial)
  · intro store after view sound h hImported
    obtain ⟨hSound, hExtends⟩ := sound.importFeed h.1 h.2 hImported
    exact ⟨hSound, hExtends, trivial⟩
  · exact fun _ _ _ _ _ _ _ => trivial

/-- A call keeps the store sound whatever the others do between its two steps. -/
theorem keeps_publish (request : Request) :
    Keeps t scheme (fun _ => True) (fun _ _ => True)
      (publish t scheme request.envelopeBytes request.trustedRootJwk request.publishedAt) := by
  refine (keeps_submit request).andThen fun submission => ?_
  refine (keeps_read submission).andThen fun orders => ?_
  exact keeps_import submission orders

end

namespace Desk

variable {Caller Key : Type} {t : Toolkit} {scheme : Ed25519 Key} {requests : Caller → Request} {desk : Desk Caller}

/-- Every caller is somewhere on the course that its outline describes. -/
abbrev OnCourse (t : Toolkit) (scheme : Ed25519 Key) (desk : Desk Caller) : Prop :=
  desk.Outlined (Sound t scheme) (fun _ => Extends) (fun _ => Extends) fun _ => Ends (fun _ _ => True) fun _ => True

theorem onCourse_opening {store : Store} (sound : Sound t scheme store) (requests : Caller → Request) :
    (opening t scheme store requests).OnCourse t scheme :=
  ⟨sound, fun caller => ⟨fun _ => True, fun _ _ _ _ _ _ => trivial, trivial, keeps_publish (requests caller)⟩⟩

variable [DecidableEq Caller]

theorem OnCourse.step (onCourse : desk.OnCourse t scheme) (step : Step Caller) :
    (desk.step t.toPlatform step).OnCourse t scheme ∧ Extends desk.state (desk.step t.toPlatform step).state := by
  cases step with
  | publish caller =>
      obtain ⟨hNext, hMoved⟩ := Pool.Outlined.advance onCourse (fun _ _ _ _ _ _ _ => id) caller
      refine ⟨hNext, ?_⟩
      rcases hMoved with hSame | ⟨-, hExtends⟩
      · have hState : (desk.step t.toPlatform (.publish caller)).state = desk.state := congrArg Pool.state hSame
        rw [hState]
        exact .refl desk.state
      · exact hExtends
  | commerce call =>
      obtain ⟨hSound, hExtends⟩ := onCourse.state.commerceStep call
      exact ⟨Pool.Outlined.disturb onCourse hSound fun _ => hExtends, hExtends⟩

theorem OnCourse.run (onCourse : desk.OnCourse t scheme) (steps : List (Step Caller)) :
    (desk.run t.toPlatform steps).OnCourse t scheme ∧ Extends desk.state (desk.run t.toPlatform steps).state := by
  induction steps generalizing desk with
  | nil => exact ⟨onCourse, .refl desk.state⟩
  | cons step rest ih =>
      obtain ⟨hNext, hStep⟩ := onCourse.step step
      obtain ⟨hLast, hRest⟩ := ih hNext
      exact ⟨hLast, hStep.trans hRest⟩

/-- A call of `publish` without interruption is a run of its caller. -/
theorem run_alone {p : Platform} {store after : Store} {view : PublicationView} (requests : Caller → Request)
    (caller : Caller) (h : (publish t scheme (requests caller).envelopeBytes (requests caller).trustedRootJwk
      (requests caller).publishedAt).run.Returns store view after) :
    ∃ steps, ((opening t scheme store requests).run p steps).state = after := by
  have hSteps : ∀ (desk : Desk Caller) (steps : Nat),
      desk.run p (List.replicate steps (.publish caller)) = Pool.run desk (List.replicate steps caller) := by
    intro desk steps
    induction steps generalizing desk with
    | zero => rfl
    | succ steps ih => exact ih (desk.advance caller)
  obtain ⟨steps, hState, -⟩ := Pool.run_alone (opening t scheme store requests) caller
  refine ⟨List.replicate steps (.publish caller), ?_⟩
  rw [hSteps, hState]
  exact congrArg Prod.snd h

end Desk

namespace Sample

/-- The key that signs the receipts. -/
def issuerKey : Bytes := [1]

/-- The envelope that was delivered, which holds no receipt. -/
def envelope : Bytes := [123, 125, 10]

def evidence : Commerce.Evidence where
  receiptId := "cpr_000000000000000000000001"
  receiptSha256 := "0000000000000000000000000000000000000000000000000000000000000001"
  envelopeSha256 := (Toolkit.standard.sha256 envelope).hexdigest
  signingKeyid := keyidOf .standard (.keyedDigest .standard) issuerKey

/-- The calls that lead to a delivered order. -/
def calls : List Commerce.Call :=
  VouchSpec.Sample.waiting ++
    [.ingestProviderEvent (VouchSpec.Sample.event "1" .captured 4900 172).toJson none VouchSpec.Sample.newYear,
      .beginFulfillment VouchSpec.Sample.orderId "fulfillment-0001" "2026-01-01T00:00:00Z",
      .recordDirectCosts VouchSpec.Sample.orderId (DirectCost.all.map fun category => (category.value, .int 1)) "costs-0001"
        none VouchSpec.Sample.newYear,
      .deliver VouchSpec.Sample.orderId evidence "fulfillment-0001" "2026-01-01T00:00:00Z"]

def commerce : Commerce := Runs.run (Commerce.step .standard) (.empty .sandbox) calls

theorem commerce_reachable : commerce.Reachable .standard := ⟨.sandbox, calls, rfl⟩

/-- The delivered order, as the drafts and the publications read it. -/
def delivered : Delivered where
  orderId := VouchSpec.Sample.orderId
  receiptId := evidence.receiptId
  receiptSha256 := evidence.receiptSha256
  envelopeSha256 := evidence.envelopeSha256
  signingKeyid := keyidOf .standard (.keyedDigest .standard) issuerKey

theorem commerce_reads : deliveredOrders commerce = .ok [delivered] ∧
    (commerce.order? VouchSpec.Sample.orderId).map (fun order => (order.deliveryStatus, order.envelopeSha256)) =
      some (.delivered, some delivered.envelopeSha256) := by decide +kernel

/-- Two callers with the same envelope, which is none. -/
def requests (_ : Bool) : Request := ⟨[123, 125], .null, VouchSpec.Sample.newYear⟩

/-- The desk of the delivered order after a run of the callers. -/
abbrev desk (steps : List (Step Bool)) : Desk Bool :=
  (Desk.opening .standard (.keyedDigest .standard) { commerce } requests).run .standard steps

end Sample

end Paid

end VouchSpec
