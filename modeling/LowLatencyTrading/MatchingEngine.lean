import LowLatencyTrading.OrderBookInvariant
import LowLatencyTrading.Protocol

/-!
# The matching engine (`exchange/src/matching_engine.rs`)

`process_request` routes each `ClientRequest` to the book of its ticker and answers with one
`ClientResponse` and the market-data deltas of the request: one `Add` for an accepted order,
one `Cancel` for a cancelled one, none otherwise. Order ids come from the engine's counter
`next_order_id`, advanced once per `New` that reaches a book with a valid side.

A subscriber that replays the deltas of one ticker (`replay`) rebuilds the book's orders as
`order_map` holds them (`OrderBook.view`): `Reachable.deltas` proves this for every run of
`add_ticker` calls followed by requests. It rests on the book's accounting
(`OrderBookInvariant`), which makes the early returns of `cancel_order` unreachable: without it
a cancel could drop an id from `order_map` and emit no `Cancel`.
-/

namespace LowLatencyTrading

/-! ## Views -/

/-- An order as market data describes it: side (its wire value), price and quantity. -/
abbrev OrderView := Int × Price × Qty

/-- The view of one order. -/
def Order.view (o : Order) : OrderView := (o.side.asSign, o.price, o.qty)

@[simp] theorem Order.view_unlinked (o : Order) : o.unlinked.view = o.view := rfl

/-- The orders `order_map` reaches, by id. -/
def OrderBook.view (b : OrderBook) (id : OrderId) : Option OrderView :=
  (b.orderMap.lookup id).map fun i => (b.orderPool.storage i).view

namespace OrderBook

variable {b : OrderBook}

@[simp] theorem linkOrder_view (level : PriceLevel) (o : Order) :
    (linkOrder level o).view = o.view := by
  rw [← Order.view_unlinked, linkOrder_unlinked, Order.view_unlinked]

theorem view_insertAt {pool : MemPool Order orderPoolCapacity} {i : Nat} {id : OrderId}
    (h : b.Inv) (hid : id ∉ b.orderMap) (ha : b.orderPool.allocate = some (i, pool))
    (c : ClientId) (s : Side) (p : Price) (q : Qty) :
    (b.insertAt pool i c id s p q).view = Function.update b.view id (some (s.asSign, p, q)) := by
  obtain ⟨-, hiA, -⟩ := h.pool.allocate ha
  have hs : pool.storage = b.orderPool.storage := by
    obtain ⟨-, -, rfl⟩ := MemPool.allocate_eq_some ha; rfl
  funext id'
  simp only [view, insertAt, setLevels_orderMap, storeOrder_orderMap, setLevels_orderPool,
    storeOrder_orderPool, MemPool.write_storage]
  by_cases e : id' = id
  · subst e
    simp only [AList.lookup_insert, Option.map_some', Function.update_same, linkOrder_view]
    rfl
  · rw [AList.lookup_insert_ne e, Function.update_noteq e, view]
    cases hl : b.orderMap.lookup id' with
    | none => rfl
    | some j =>
      have hj : j ≠ i := fun hji =>
        hiA (hji ▸ List.mem_map_of_mem (·.2) (AList.mem_lookup_iff.mp hl))
      simp [Function.update_noteq hj, hs]

theorem view_removeAt (id : OrderId) (poolIdx : Nat) (o : Order) (level : PriceLevel) :
    ((b.eraseId id).removeAt poolIdx o level).view = Function.update b.view id none := by
  funext id'
  have hst : ∀ j, (((b.eraseId id).removeAt poolIdx o level).orderPool.storage j).view =
      (b.orderPool.storage j).view := fun j => by
    rw [← Order.view_unlinked, ← Order.view_unlinked (b.orderPool.storage j)]
    simp [removeAt, MemPool.deallocateByIndex_eq]
  by_cases e : id' = id
  · subst e
    simp [view, removeAt, AList.lookup_erase]
  · simp only [view, hst, Function.update_noteq e]
    simp [removeAt, AList.lookup_erase_ne e]

/-- Under the accounting, `add_order` of a new id either leaves the book alone or enters the
order under its id. -/
theorem Inv.addOrder_cases (h : b.Inv) {id : OrderId} (hid : id ∉ b.orderMap) (c : ClientId)
    (s : Side) (p : Price) (q : Qty) :
    b.addOrder c id s p q = (b, none) ∨
      ∃ i, (b.addOrder c id s p q).2 = some i ∧
        (b.addOrder c id s p q).1.orderMap = b.orderMap.insert id i ∧
        (b.addOrder c id s p q).1.view = Function.update b.view id (some (s.asSign, p, q)) := by
  unfold OrderBook.addOrder
  rw [if_neg hid]
  cases ha : b.orderPool.allocate with
  | none => exact .inl rfl
  | some x =>
    obtain ⟨i, pool⟩ := x
    exact .inr ⟨i, rfl, insertAt_orderMap .., view_insertAt h hid ha c s p q⟩

/-- Under the accounting, `cancel_order` either finds nothing and leaves the book alone, or
takes the id out. -/
theorem Inv.cancelOrder_cases (h : b.Inv) (id : OrderId) :
    (b.view id = none ∧ b.cancelOrder id = (b, none)) ∨
      ∃ o, (b.cancelOrder id).2 = some o ∧
        (b.cancelOrder id).1.orderMap = b.orderMap.erase id ∧
        (b.cancelOrder id).1.view = Function.update b.view id none := by
  cases hid : b.orderMap.lookup id with
  | none => exact .inl ⟨by simp [view, hid], by simp [OrderBook.cancelOrder, hid]⟩
  | some i =>
    obtain ⟨-, level, -, heq⟩ := h.cancelOrder_eq hid
    rw [heq]
    exact .inr ⟨_, rfl, by simp, view_removeAt id i _ level⟩

end OrderBook

/-- What a subscriber does with one delta: `Add` enters `order_id ↦ (side, price, qty)`,
`Cancel` takes `order_id` out, any other update leaves the view alone. -/
def applyUpdate (v : OrderId → Option OrderView) (u : MarketUpdate) : OrderId → Option OrderView :=
  if u.msgType = MarketUpdateType.add.toU8 then
    Function.update v u.orderId (some (u.side, u.price, u.qty))
  else if u.msgType = MarketUpdateType.cancel.toU8 then Function.update v u.orderId none
  else v

/-- The view a delta stream builds from nothing. -/
def replay (us : List MarketUpdate) : OrderId → Option OrderView :=
  us.foldl applyUpdate fun _ => none

/-- What one request's output carries: an `Accepted` response with one `Add`, a `Canceled`
response with one `Cancel`, or another response and no delta. -/
def OutputShape (out : ClientResponse × List MarketUpdate) : Prop :=
  (out.1.msgType = ClientResponseType.accepted.toU8 ∧
      ∃ u, out.2 = [u] ∧ u.msgType = MarketUpdateType.add.toU8) ∨
    (out.1.msgType = ClientResponseType.canceled.toU8 ∧
      ∃ u, out.2 = [u] ∧ u.msgType = MarketUpdateType.cancel.toU8) ∨
    (out.1.msgType ≠ ClientResponseType.accepted.toU8 ∧
      out.1.msgType ≠ ClientResponseType.canceled.toU8 ∧ out.2 = [])

/-- The quantity that the deltas `us` of type `ty` carry for ticker `t`, side `s` and price
`p`. -/
def deltaQty (us : List MarketUpdate) (ty : MarketUpdateType) (t : TickerId) (s : Side)
    (p : Price) : Nat :=
  ((us.filter fun u => u.msgType = ty.toU8 ∧ u.tickerId = t ∧ u.side = s.asSign ∧ u.price = p).map
    (·.qty)).sum

@[simp] theorem deltaQty_nil (ty : MarketUpdateType) (t : TickerId) (s : Side) (p : Price) :
    deltaQty [] ty t s p = 0 := rfl

theorem deltaQty_singleton (u : MarketUpdate) (ty : MarketUpdateType) (t : TickerId) (s : Side)
    (p : Price) : deltaQty [u] ty t s p =
      if u.msgType = ty.toU8 ∧ u.tickerId = t ∧ u.side = s.asSign ∧ u.price = p then u.qty
      else 0 := by
  unfold deltaQty
  split <;> simp_all

/-- The market order ids of the `Accepted` responses, in order. -/
def acceptedIds (outs : List (ClientResponse × List MarketUpdate)) : List OrderId :=
  outs.filterMap fun out =>
    if out.1.msgType = ClientResponseType.accepted.toU8 then some out.1.marketOrderId else none

/-! ## The engine -/

/-- `MatchingEngine`. -/
structure MatchingEngine where
  orderBooks : HashMap TickerId OrderBook
  nextOrderId : OrderId

namespace MatchingEngine

/-- `MatchingEngine::new`. -/
def new : MatchingEngine := ⟨∅, 1⟩

/-- `MatchingEngine::add_ticker`: `entry(ticker_id).or_insert_with(..)`. -/
def addTicker (e : MatchingEngine) (tickerId : TickerId) : MatchingEngine :=
  if tickerId ∈ e.orderBooks then e
  else { e with orderBooks := e.orderBooks.insert tickerId (OrderBook.new tickerId) }

/-- The engine after `add_ticker` for each of `tickers`, as the exchange starts it. -/
def start (tickers : List TickerId) : MatchingEngine := tickers.foldl addTicker new

/-- The side of a wire value (`match side_raw { 1 => Buy, -1 => Sell, _ => reject }`). -/
def sideOfRaw (raw : Int) : Option Side :=
  if raw = 1 then some .buy else if raw = -1 then some .sell else none

/-- `create_reject_response`. -/
def createRejectResponse (clientId : ClientId) (tickerId : TickerId) (clientOrderId : OrderId)
    (side : Int) (price : Price) (qty : Qty) : ClientResponse × List MarketUpdate :=
  (ClientResponse.new .invalidRequest clientId tickerId clientOrderId 0 side price 0 qty, [])

/-- `create_cancel_reject_response`. -/
def createCancelRejectResponse (clientId : ClientId) (tickerId : TickerId) (orderId : OrderId)
    (side : Int) (price : Price) : ClientResponse × List MarketUpdate :=
  (ClientResponse.new .cancelRejected clientId tickerId orderId 0 side price 0 0, [])

/-- `handle_new_order`. The counter advances before `add_order` is tried. -/
def handleNewOrder (e : MatchingEngine) (r : ClientRequest) :
    MatchingEngine × (ClientResponse × List MarketUpdate) :=
  match e.orderBooks.lookup r.tickerId with
  | none => (e, createRejectResponse r.clientId r.tickerId r.orderId r.side r.price r.qty)
  | some book =>
    match sideOfRaw r.side with
    | none => (e, createRejectResponse r.clientId r.tickerId r.orderId r.side r.price r.qty)
    | some side =>
      let marketOrderId := e.nextOrderId
      let added := book.addOrder r.clientId marketOrderId side r.price r.qty
      let e := ⟨e.orderBooks.insert r.tickerId added.1, e.nextOrderId + 1⟩
      match added.2 with
      | some _ =>
        (e, (ClientResponse.new .accepted r.clientId r.tickerId r.orderId marketOrderId r.side
            r.price 0 r.qty,
          [MarketUpdate.new .add r.tickerId marketOrderId r.side r.price r.qty marketOrderId]))
      | none => (e, createRejectResponse r.clientId r.tickerId r.orderId r.side r.price r.qty)

/-- `handle_cancel`. -/
def handleCancel (e : MatchingEngine) (r : ClientRequest) :
    MatchingEngine × (ClientResponse × List MarketUpdate) :=
  match e.orderBooks.lookup r.tickerId with
  | none => (e, createCancelRejectResponse r.clientId r.tickerId r.orderId r.side r.price)
  | some book =>
    let canceled := book.cancelOrder r.orderId
    let e := { e with orderBooks := e.orderBooks.insert r.tickerId canceled.1 }
    match canceled.2 with
    | some o =>
      (e, (ClientResponse.new .canceled r.clientId r.tickerId r.orderId r.orderId o.side.asSign
          o.price 0 o.qty,
        [MarketUpdate.new .cancel r.tickerId r.orderId o.side.asSign o.price o.qty o.priority]))
    | none => (e, createCancelRejectResponse r.clientId r.tickerId r.orderId r.side r.price)

/-- `handle_invalid_request`: the same response as `create_reject_response`. -/
def handleInvalidRequest (e : MatchingEngine) (r : ClientRequest) :
    MatchingEngine × (ClientResponse × List MarketUpdate) :=
  (e, createRejectResponse r.clientId r.tickerId r.orderId r.side r.price r.qty)

/-- `MatchingEngine::process_request`. -/
def processRequest (e : MatchingEngine) (r : ClientRequest) :
    MatchingEngine × (ClientResponse × List MarketUpdate) :=
  match ClientRequestType.fromU8 r.msgType with
  | some .new => e.handleNewOrder r
  | some .cancel => e.handleCancel r
  | none => e.handleInvalidRequest r

/-- The orders of one ticker's book, by id; nothing for a ticker without a book. -/
def view (e : MatchingEngine) (tickerId : TickerId) : OrderId → Option OrderView :=
  ((e.orderBooks.lookup tickerId).map OrderBook.view).getD fun _ => none

theorem view_mk (books : HashMap TickerId OrderBook) (n : OrderId) (t : TickerId) :
    (⟨books, n⟩ : MatchingEngine).view t =
      ((books.lookup t).map OrderBook.view).getD fun _ => none := rfl

/-- Writing one book back changes the view of its ticker only. -/
theorem view_insert (e : MatchingEngine) (n : OrderId) (tk : TickerId) (b : OrderBook)
    (t : TickerId) : (⟨e.orderBooks.insert tk b, n⟩ : MatchingEngine).view t =
      if t = tk then b.view else e.view t := by
  by_cases h : t = tk
  · subst h; simp [view_mk, AList.lookup_insert]
  · simp [view_mk, AList.lookup_insert_ne h, h, view]

/-- The quantity resting on side `s` at price `p` of ticker `t`'s book; none without a book. -/
def levelQty (e : MatchingEngine) (t : TickerId) (s : Side) (p : Price) : Nat :=
  ((e.orderBooks.lookup t).map fun b => b.levelQty s p).getD 0

theorem levelQty_insert (e : MatchingEngine) (n : OrderId) (tk : TickerId) (b : OrderBook)
    (t : TickerId) (s : Side) (p : Price) :
    (⟨e.orderBooks.insert tk b, n⟩ : MatchingEngine).levelQty t s p =
      if t = tk then b.levelQty s p else e.levelQty t s p := by
  by_cases h : t = tk
  · subst h; simp [levelQty, AList.lookup_insert]
  · simp [levelQty, AList.lookup_insert_ne h, h]

/-! ## One request -/

/-- The engine's own invariant: every book keeps its accounting, and every live id is below
`next_order_id`. -/
structure Inv (e : MatchingEngine) : Prop where
  books : ∀ t b, e.orderBooks.lookup t = some b → b.Inv
  fresh : ∀ t b, e.orderBooks.lookup t = some b → ∀ id ∈ b.orderMap, id < e.nextOrderId

theorem Inv.insert {e : MatchingEngine} (h : e.Inv) {tk : TickerId} {b : OrderBook} {n : OrderId}
    (hb : b.Inv) (hf : ∀ id ∈ b.orderMap, id < n) (hn : e.nextOrderId ≤ n) :
    (⟨e.orderBooks.insert tk b, n⟩ : MatchingEngine).Inv where
  books t b' hl := by
    by_cases ht : t = tk
    · subst ht; simp only [AList.lookup_insert, Option.some.injEq] at hl; exact hl ▸ hb
    · rw [AList.lookup_insert_ne ht] at hl; exact h.books t b' hl
  fresh t b' hl id hid := by
    by_cases ht : t = tk
    · subst ht; simp only [AList.lookup_insert, Option.some.injEq] at hl; exact hf id (hl ▸ hid)
    · rw [AList.lookup_insert_ne ht] at hl; exact Nat.lt_of_lt_of_le (h.fresh t b' hl id hid) hn

/-- What one request does, as a run needs it: the invariant is kept, the output has its shape,
its deltas turn the old views into the new ones, the counter does not go back, an accepted id is
the counter's, and no `Add` names a live id. -/
structure StepOk (e e' : MatchingEngine) (out : ClientResponse × List MarketUpdate) : Prop where
  inv : e'.Inv
  shape : OutputShape out
  view : ∀ t, (out.2.filter (·.tickerId = t)).foldl applyUpdate (e.view t) = e'.view t
  next_le : e.nextOrderId ≤ e'.nextOrderId
  accepted : out.1.msgType = ClientResponseType.accepted.toU8 →
    out.1.marketOrderId = e.nextOrderId ∧ e.nextOrderId < e'.nextOrderId
  fresh_add : ∀ u ∈ out.2, u.msgType = MarketUpdateType.add.toU8 →
    ∀ t b, e.orderBooks.lookup t = some b → u.orderId ∉ b.orderMap
  levels : ∀ t s p, e'.levelQty t s p + deltaQty out.2 .cancel t s p =
    e.levelQty t s p + deltaQty out.2 .add t s p

/-- A request that writes back a book unchanged and answers with neither `Accepted` nor
`Canceled`. -/
theorem StepOk.quiet {e : MatchingEngine} (h : e.Inv) {tk : TickerId} {b : OrderBook}
    (hb : e.orderBooks.lookup tk = some b) {n : OrderId} (hn : e.nextOrderId ≤ n)
    {resp : ClientResponse} (ha : resp.msgType ≠ ClientResponseType.accepted.toU8)
    (hc : resp.msgType ≠ ClientResponseType.canceled.toU8) :
    StepOk e ⟨e.orderBooks.insert tk b, n⟩ (resp, []) where
  inv := h.insert (h.books _ _ hb) (fun id hid => Nat.lt_of_lt_of_le (h.fresh _ _ hb id hid) hn) hn
  shape := .inr (.inr ⟨ha, hc, rfl⟩)
  view t := by
    rw [view_insert]
    split
    · subst_vars; simp [MatchingEngine.view, hb]
    · rfl
  next_le := hn
  accepted := fun h => absurd h ha
  fresh_add := fun _ hu => absurd hu (List.not_mem_nil _)
  levels t s p := by
    rw [levelQty_insert]
    split
    · subst_vars; simp [levelQty, hb]
    · rfl

/-- A request that leaves the engine as it is and answers with neither `Accepted` nor
`Canceled`. -/
theorem StepOk.refl {e : MatchingEngine} (h : e.Inv) {resp : ClientResponse}
    (ha : resp.msgType ≠ ClientResponseType.accepted.toU8)
    (hc : resp.msgType ≠ ClientResponseType.canceled.toU8) : StepOk e e (resp, []) where
  inv := h
  shape := .inr (.inr ⟨ha, hc, rfl⟩)
  view _ := rfl
  next_le := le_rfl
  accepted := fun h => absurd h ha
  fresh_add := fun _ hu => absurd hu (List.not_mem_nil _)
  levels _ _ _ := rfl

theorem sideOfRaw_asSign {raw : Int} {s : Side} (h : sideOfRaw raw = some s) : s.asSign = raw := by
  unfold sideOfRaw at h
  split_ifs at h <;> cases h <;> simp_all

theorem foldl_filter_singleton (v : OrderId → Option OrderView) (u : MarketUpdate) (t : TickerId) :
    ([u].filter (·.tickerId = t)).foldl applyUpdate v =
      if t = u.tickerId then applyUpdate v u else v := by
  by_cases h : t = u.tickerId
  · simp [h]
  · simp [h, Ne.symm h]

theorem handleNewOrder_ok {e : MatchingEngine} (h : e.Inv) (r : ClientRequest) :
    StepOk e (e.handleNewOrder r).1 (e.handleNewOrder r).2 := by
  unfold handleNewOrder
  cases hb : e.orderBooks.lookup r.tickerId with
  | none => exact StepOk.refl h (by simp) (by simp)
  | some b =>
    cases hs : sideOfRaw r.side with
    | none => exact StepOk.refl h (by simp) (by simp)
    | some s =>
      have hbi := h.books _ _ hb
      have hfresh : e.nextOrderId ∉ b.orderMap := fun hm => lt_irrefl _ (h.fresh _ _ hb _ hm)
      rcases hbi.addOrder_cases hfresh r.clientId s r.price r.qty with hq | ⟨i, hi, hmap, hv⟩
      · simp only [hq]
        exact StepOk.quiet h hb (Nat.le_succ _) (by simp) (by simp)
      · simp only [hi]
        refine ⟨h.insert (hbi.addOrder _ _ _ _ _) (fun id hid => ?_) (Nat.le_succ _),
          .inl ⟨rfl, _, rfl, rfl⟩, fun t => ?_, Nat.le_succ _, fun _ => ⟨rfl, Nat.lt_succ_self _⟩,
          ?_, fun t s' p => ?_⟩
        · rw [hmap, AList.mem_insert] at hid
          rcases hid with rfl | hid
          · exact Nat.lt_succ_self _
          · exact Nat.lt_succ_of_lt (h.fresh _ _ hb id hid)
        · rw [foldl_filter_singleton, view_insert]
          by_cases ht : t = r.tickerId
          · subst ht
            simp [applyUpdate, MarketUpdate.new, MatchingEngine.view, hb, hv, sideOfRaw_asSign hs]
          · simp [ht]
        · intro u hu _ t b' hl
          rw [List.mem_singleton] at hu
          subst hu
          exact fun hm => lt_irrefl _ (h.fresh _ _ hl _ hm)
        · rw [levelQty_insert, deltaQty_singleton, deltaQty_singleton]
          by_cases ht : t = r.tickerId
          · subst ht
            rw [hbi.levelQty_addOrder hfresh (by simp [hi]) s' p]
            simp [levelQty, hb, MarketUpdate.new, ← sideOfRaw_asSign hs, Side.asSign_inj]
          · simp [ht, Ne.symm ht, MarketUpdate.new]

theorem handleCancel_ok {e : MatchingEngine} (h : e.Inv) (r : ClientRequest) :
    StepOk e (e.handleCancel r).1 (e.handleCancel r).2 := by
  unfold handleCancel
  cases hb : e.orderBooks.lookup r.tickerId with
  | none => exact StepOk.refl h (by simp) (by simp)
  | some b =>
    have hbi := h.books _ _ hb
    rcases hbi.cancelOrder_cases r.orderId with ⟨-, hq⟩ | ⟨o, ho, hmap, hv⟩
    · simp only [hq]
      exact StepOk.quiet h hb le_rfl (by simp) (by simp)
    · simp only [ho]
      refine ⟨h.insert (hbi.cancelOrder _) (fun id hid => ?_) le_rfl,
        .inr (.inl ⟨rfl, _, rfl, rfl⟩), fun t => ?_, le_rfl, fun hc => absurd hc (by simp),
        fun u hu hadd => ?_, fun t s p => ?_⟩
      · rw [hmap, AList.mem_erase] at hid
        exact h.fresh _ _ hb id hid.2
      · rw [foldl_filter_singleton, view_insert]
        by_cases ht : t = r.tickerId
        · subst ht
          simp [applyUpdate, MarketUpdate.new, MatchingEngine.view, hb, hv]
        · simp [ht]
      · rw [List.mem_singleton] at hu
        subst hu
        exact absurd hadd (by simp)
      · rw [levelQty_insert, deltaQty_singleton, deltaQty_singleton]
        by_cases ht : t = r.tickerId
        · subst ht
          have he : e.levelQty r.tickerId s p = b.levelQty s p := by simp [levelQty, hb]
          rw [he, ← hbi.levelQty_cancelOrder ho s p]
          simp [MarketUpdate.new, Side.asSign_inj]
        · simp [ht, Ne.symm ht, MarketUpdate.new]

theorem processRequest_ok {e : MatchingEngine} (h : e.Inv) (r : ClientRequest) :
    StepOk e (e.processRequest r).1 (e.processRequest r).2 := by
  unfold processRequest
  split
  · exact handleNewOrder_ok h r
  · exact handleCancel_ok h r
  · exact StepOk.refl h (by simp) (by simp)

/-! ## The counter and the tickers -/

/-- `process_request` advances the counter once for a `New` that reaches a book with a valid
side, and leaves it otherwise. -/
theorem processRequest_nextOrderId (e : MatchingEngine) (r : ClientRequest) :
    (e.processRequest r).1.nextOrderId =
      if ClientRequestType.fromU8 r.msgType = some .new ∧ r.tickerId ∈ e.orderBooks ∧
          (sideOfRaw r.side).isSome then e.nextOrderId + 1 else e.nextOrderId := by
  unfold processRequest
  split
  · next hm =>
    unfold handleNewOrder
    cases hb : e.orderBooks.lookup r.tickerId with
    | none => simp [hm, AList.lookup_eq_none.mp hb]
    | some b =>
      have ht : r.tickerId ∈ e.orderBooks := AList.lookup_isSome.mp (by simp [hb])
      cases hs : sideOfRaw r.side with
      | none => simp [hm, hs]
      | some s => simp only [hm, ht, hs]; split <;> simp
  · next hm =>
    rw [if_neg (by simp [hm])]
    unfold handleCancel
    split
    · rfl
    · dsimp only; split <;> rfl
  · next hm => simp [handleInvalidRequest, hm]

/-- No request takes a ticker's book away. -/
theorem mem_processRequest {e : MatchingEngine} {t : TickerId} (r : ClientRequest)
    (ht : t ∈ e.orderBooks) : t ∈ (e.processRequest r).1.orderBooks := by
  unfold processRequest handleNewOrder handleCancel handleInvalidRequest
  repeat' split
  all_goals dsimp only
  all_goals (try split) <;> simp [AList.mem_insert, ht]

/-- An `Accepted` answers a `New`, with the request's id as the client's and the counter as the
market's. -/
theorem processRequest_accepted {e : MatchingEngine} {r : ClientRequest}
    (h : (e.processRequest r).2.1.msgType = ClientResponseType.accepted.toU8) :
    ClientRequestType.fromU8 r.msgType = some .new ∧
      (e.processRequest r).2.1.clientOrderId = r.orderId ∧
      (e.processRequest r).2.1.marketOrderId = e.nextOrderId := by
  revert h
  unfold processRequest handleNewOrder handleCancel handleInvalidRequest createRejectResponse
    createCancelRejectResponse
  repeat' split
  all_goals dsimp only
  all_goals (try split) <;> simp_all [ClientResponse.new]

/-! ## Runs -/

/-- What a run of requests has produced, against the engine it leaves: the outputs have their
shape, each ticker's deltas replay to its book, and the accepted ids rise and stay below the
counter. -/
structure Consistent (e : MatchingEngine) (outs : List (ClientResponse × List MarketUpdate)) :
    Prop where
  inv : e.Inv
  shape : ∀ out ∈ outs, OutputShape out
  replays : ∀ t, replay ((outs.flatMap (·.2)).filter (·.tickerId = t)) = e.view t
  accepted_lt : ∀ m ∈ acceptedIds outs, m < e.nextOrderId
  accepted_sorted : (acceptedIds outs).Pairwise (· < ·)

theorem acceptedIds_append_singleton (outs : List (ClientResponse × List MarketUpdate))
    (out : ClientResponse × List MarketUpdate) :
    acceptedIds (outs ++ [out]) = acceptedIds outs ++
      if out.1.msgType = ClientResponseType.accepted.toU8 then [out.1.marketOrderId] else [] := by
  simp only [acceptedIds, List.filterMap_append, List.filterMap_cons, List.filterMap_nil]
  split <;> simp_all

theorem Consistent.step {e e' : MatchingEngine} {outs : List (ClientResponse × List MarketUpdate)}
    {out : ClientResponse × List MarketUpdate} (hc : Consistent e outs) (hs : StepOk e e' out) :
    Consistent e' (outs ++ [out]) where
  inv := hs.inv
  shape o ho := by
    rcases List.mem_append.mp ho with ho | ho
    · exact hc.shape o ho
    · exact List.mem_singleton.mp ho ▸ hs.shape
  replays t := by
    simp only [List.flatMap_append, List.filter_append, replay, List.foldl_append]
    rw [← replay, hc.replays t, ← hs.view t]
    simp
  accepted_lt m hm := by
    rw [acceptedIds_append_singleton, List.mem_append] at hm
    rcases hm with hm | hm
    · exact Nat.lt_of_lt_of_le (hc.accepted_lt m hm) hs.next_le
    · split at hm
      · obtain ⟨hid, hlt⟩ := hs.accepted ‹_›
        rw [List.mem_singleton.mp hm, hid]; exact hlt
      · exact absurd hm (List.not_mem_nil _)
  accepted_sorted := by
    rw [acceptedIds_append_singleton, List.pairwise_append]
    refine ⟨hc.accepted_sorted, ?_, fun a ha b hb => ?_⟩
    · split <;> simp
    · split at hb
      · rw [List.mem_singleton.mp hb, (hs.accepted ‹_›).1]; exact hc.accepted_lt a ha
      · exact absurd hb (List.not_mem_nil _)

theorem foldl_addTicker_lookup (ts : List TickerId) {e : MatchingEngine}
    (he : ∀ t b, e.orderBooks.lookup t = some b → b = OrderBook.new t) :
    ∀ t b, (ts.foldl addTicker e).orderBooks.lookup t = some b → b = OrderBook.new t := by
  induction ts generalizing e with
  | nil => exact he
  | cons tk ts ih =>
    refine ih fun t b hb => ?_
    unfold addTicker at hb
    split at hb
    · exact he t b hb
    · by_cases htk : t = tk
      · subst htk
        simp only [AList.lookup_insert, Option.some.injEq] at hb
        exact hb.symm
      · rw [AList.lookup_insert_ne htk] at hb; exact he t b hb

/-- Every book of a started engine is a fresh one. -/
theorem start_lookup {ts : List TickerId} {t : TickerId} {b : OrderBook}
    (h : (start ts).orderBooks.lookup t = some b) : b = OrderBook.new t :=
  foldl_addTicker_lookup ts (fun t b hb => by simp [new, AList.lookup_empty] at hb) t b h

theorem mem_addTicker (e : MatchingEngine) (tk t : TickerId) :
    t ∈ (e.addTicker tk).orderBooks ↔ t = tk ∨ t ∈ e.orderBooks := by
  unfold addTicker
  split
  · exact ⟨.inr, by rintro (rfl | h) <;> assumption⟩
  · simp only [AList.mem_insert]

theorem mem_foldl_addTicker (ts : List TickerId) {e : MatchingEngine} {t : TickerId}
    (h : t ∈ e.orderBooks ∨ t ∈ ts) : t ∈ (ts.foldl addTicker e).orderBooks := by
  induction ts generalizing e with
  | nil => simpa using h
  | cons tk ts ih =>
    refine ih ?_
    rw [mem_addTicker]
    rcases h with h | h
    · exact .inl (.inr h)
    · rcases List.mem_cons.mp h with h | h
      · exact .inl (.inl h)
      · exact .inr h

theorem foldl_addTicker_nextOrderId (ts : List TickerId) (e : MatchingEngine) :
    (ts.foldl addTicker e).nextOrderId = e.nextOrderId := by
  induction ts generalizing e with
  | nil => rfl
  | cons tk ts ih => rw [List.foldl_cons, ih]; unfold addTicker; split <;> rfl

/-- A started engine has a book for each of its tickers, and its counter at 1. -/
theorem mem_start {ts : List TickerId} {t : TickerId} (h : t ∈ ts) : t ∈ (start ts).orderBooks :=
  mem_foldl_addTicker ts (.inr h)

theorem start_nextOrderId (ts : List TickerId) : (start ts).nextOrderId = 1 :=
  foldl_addTicker_nextOrderId ts new

theorem Consistent.start (ts : List TickerId) : Consistent (start ts) [] where
  inv := ⟨fun t b hb => start_lookup hb ▸ OrderBook.new_inv t,
    fun t b hb id hid => by rw [start_lookup hb] at hid; exact absurd hid (AList.not_mem_empty id)⟩
  shape _ ho := absurd ho (List.not_mem_nil _)
  replays t := by
    funext id
    cases hb : (MatchingEngine.start ts).orderBooks.lookup t with
    | none => simp [MatchingEngine.view, hb, replay]
    | some b =>
      rw [start_lookup hb] at hb
      simp [MatchingEngine.view, hb, replay, OrderBook.view, OrderBook.new, AList.lookup_empty]
  accepted_lt _ hm := absurd hm (List.not_mem_nil _)
  accepted_sorted := List.Pairwise.nil

/-- The engines and outputs of the exchange's runs: `add_ticker` for some tickers, then
`process_request` on one request after another, each adding its output. -/
inductive Reachable : MatchingEngine → List (ClientResponse × List MarketUpdate) → Prop
  | start (tickers : List TickerId) : Reachable (start tickers) []
  | processRequest {e : MatchingEngine} {outs : List (ClientResponse × List MarketUpdate)}
      (r : ClientRequest) :
      Reachable e outs → Reachable (e.processRequest r).1 (outs ++ [(e.processRequest r).2])

theorem Reachable.consistent {e : MatchingEngine} {outs : List (ClientResponse × List MarketUpdate)}
    (h : Reachable e outs) : Consistent e outs := by
  induction h with
  | start ts => exact Consistent.start ts
  | processRequest r _ ih => exact ih.step (processRequest_ok ih.inv r)

/-- **The delta stream describes the books.** After `add_ticker` calls and any requests: each
output is an `Accepted` with one `Add`, a `Canceled` with one `Cancel`, or another response
with no delta; replaying one ticker's deltas from nothing gives exactly the orders of its
book's `order_map`; the accepted market ids strictly rise; and the engine's next id, which the
next `New` hands to `add_order`, is live in no book, so no `Add` names a live id and the
duplicate check of `add_order` never fires. -/
theorem Reachable.deltas {e : MatchingEngine} {outs : List (ClientResponse × List MarketUpdate)}
    (h : Reachable e outs) :
    (∀ out ∈ outs, OutputShape out) ∧
      (∀ t, replay ((outs.flatMap (·.2)).filter (·.tickerId = t)) = e.view t) ∧
      (acceptedIds outs).Pairwise (· < ·) ∧
      (∀ t b, e.orderBooks.lookup t = some b → e.nextOrderId ∉ b.orderMap) ∧
      (∀ r, ∀ u ∈ (e.processRequest r).2.2, u.msgType = MarketUpdateType.add.toU8 →
        ∀ t b, e.orderBooks.lookup t = some b → u.orderId ∉ b.orderMap) := by
  have hc := h.consistent
  exact ⟨hc.shape, hc.replays, hc.accepted_sorted,
    fun t b hb hm => lt_irrefl _ (hc.inv.fresh t b hb _ hm),
    fun r => (processRequest_ok hc.inv r).fresh_add⟩

/-- After one `New` on a started engine, the deltas of ticker 1 replay to its book. -/
theorem deltas_after_new :
    replay ((([] : List (ClientResponse × List MarketUpdate)) ++
        [((start [1]).processRequest (ClientRequest.new .new 7 1 42 1 100 10)).2]).flatMap
          (·.2) |>.filter (·.tickerId = 1)) =
      ((start [1]).processRequest (ClientRequest.new .new 7 1 42 1 100 10)).1.view 1 :=
  (Reachable.deltas (.processRequest _ (.start [1]))).2.1 1

end MatchingEngine

end LowLatencyTrading
