import LowLatencyTrading.MemPool

/-!
# The order book (`exchange/src/order_book.rs`)

One book per ticker: a `PriceLevel` map per side, the map `order_map` from exchange order ids to
pool slots, a pool of 65,536 `Order` slots, and the counter `next_priority`. Each level bounds an
intrusive chain of its orders by slot index: `head_idx` and `tail_idx` on the level, `prev_idx`
and `next_idx` on each order.

`add_order` puts the new order at its level's tail, but the two scans of `order_map` meant to set
the old tail's `next_idx` (lines 170–181 and 198–212) break out without writing: the old tail
keeps `next_idx = None`. The model keeps that: `linkLevel` and `linkOrder` write only the
level and the new order. `cancel_order` unlinks through `get_by_index` and frees the slot with
`deallocate_by_index`.

`resting` forgets the links: it lists the orders `order_map` reaches, as the book stores them.
The invariants (`OrderBookInvariant`) speak about counts and quantities through it.
-/

namespace LowLatencyTrading

/-- `Order`: an order in the book's pool. -/
structure Order where
  orderId : OrderId
  clientId : ClientId
  tickerId : TickerId
  side : Side
  price : Price
  qty : Qty
  priority : Priority
  /-- `prev_idx`: the slot before this one at its level. -/
  prevIdx : Option Nat
  /-- `next_idx`: the slot after this one at its level. -/
  nextIdx : Option Nat
  deriving DecidableEq, Repr, Inhabited

/-- The order with its links forgotten. -/
def Order.unlinked (o : Order) : Order := { o with prevIdx := none, nextIdx := none }

/-- `PriceLevel`. -/
structure PriceLevel where
  price : Price
  totalQty : Qty
  headIdx : Option Nat
  tailIdx : Option Nat
  orderCount : Nat
  deriving DecidableEq, Repr

/-- `PriceLevel::new`. -/
def PriceLevel.new (price : Price) : PriceLevel := ⟨price, 0, none, none, 0⟩

/-- The capacity of the book's pool, `MemPool<Order, 65536>`. -/
abbrev orderPoolCapacity : Nat := 65536

/-- `OrderBook`. `order_map` sends an id to its slot, the `pool_idx` of `OrderIndex`. -/
structure OrderBook where
  tickerId : TickerId
  bidLevels : HashMap Price PriceLevel
  askLevels : HashMap Price PriceLevel
  orderMap : HashMap OrderId Nat
  orderPool : MemPool Order orderPoolCapacity
  nextPriority : Priority

namespace OrderBook

/-- `OrderBook::new`. Its pool comes from `MemPool::new_boxed`; the zeroed slots are
`default`. -/
def new (tickerId : TickerId) : OrderBook := ⟨tickerId, ∅, ∅, ∅, MemPool.init default, 1⟩

theorem newBoxed_pool : MemPool.newBoxed (default : Order) =
    some (MemPool.init default : MemPool Order orderPoolCapacity) := rfl

/-- The level map of one side (`match side { Buy => bid_levels, Sell => ask_levels }`). -/
def levels (b : OrderBook) : Side → HashMap Price PriceLevel
  | .buy => b.bidLevels
  | .sell => b.askLevels

/-- Replace the level map of one side. -/
def setLevels (b : OrderBook) : Side → HashMap Price PriceLevel → OrderBook
  | .buy, m => { b with bidLevels := m }
  | .sell, m => { b with askLevels := m }

@[simp] theorem levels_setLevels_self (b : OrderBook) (s : Side) (m : HashMap Price PriceLevel) :
    (b.setLevels s m).levels s = m := by cases s <;> rfl

theorem levels_setLevels_ne (b : OrderBook) {s s' : Side} (m : HashMap Price PriceLevel)
    (h : s' ≠ s) : (b.setLevels s m).levels s' = b.levels s' := by
  cases s <;> cases s' <;> first | rfl | exact absurd rfl h

@[simp] theorem setLevels_orderMap (b : OrderBook) (s : Side) (m : HashMap Price PriceLevel) :
    (b.setLevels s m).orderMap = b.orderMap := by cases s <;> rfl

@[simp] theorem setLevels_orderPool (b : OrderBook) (s : Side) (m : HashMap Price PriceLevel) :
    (b.setLevels s m).orderPool = b.orderPool := by cases s <;> rfl

@[simp] theorem setLevels_nextPriority (b : OrderBook) (s : Side)
    (m : HashMap Price PriceLevel) : (b.setLevels s m).nextPriority = b.nextPriority := by
  cases s <;> rfl

@[simp] theorem setLevels_tickerId (b : OrderBook) (s : Side) (m : HashMap Price PriceLevel) :
    (b.setLevels s m).tickerId = b.tickerId := by cases s <;> rfl

/-! ## `add_order` -/

/-- Step 5 of `add_order` on the level: its tail moves to the new slot, and an empty level gets
the new slot as its head too. -/
def linkLevel (level : PriceLevel) (newIdx : Nat) : PriceLevel :=
  match level.tailIdx with
  | some _ => { level with tailIdx := some newIdx }
  | none => { level with headIdx := some newIdx, tailIdx := some newIdx }

/-- Step 5 of `add_order` on the new order: an existing tail becomes its `prev_idx`. The old
tail's own `next_idx` is not written. -/
def linkOrder (level : PriceLevel) (order : Order) : Order :=
  match level.tailIdx with
  | some tailIdx => { order with prevIdx := some tailIdx }
  | none => order

@[simp] theorem linkOrder_unlinked (level : PriceLevel) (order : Order) :
    (linkOrder level order).unlinked = order.unlinked := by
  unfold linkOrder; split <;> rfl

@[simp] theorem linkLevel_totalQty (level : PriceLevel) (i : Nat) :
    (linkLevel level i).totalQty = level.totalQty := by
  unfold linkLevel; split <;> rfl

@[simp] theorem linkLevel_orderCount (level : PriceLevel) (i : Nat) :
    (linkLevel level i).orderCount = level.orderCount := by
  unfold linkLevel; split <;> rfl

/-- The new order, as `add_order` writes it before linking. -/
def newOrder (b : OrderBook) (clientId : ClientId) (orderId : OrderId) (side : Side)
    (price : Price) (qty : Qty) : Order :=
  ⟨orderId, clientId, b.tickerId, side, price, qty, b.nextPriority, none, none⟩

/-- The level an order joins: `levels.entry(price).or_insert_with(|| PriceLevel::new(price))`. -/
def levelAt (b : OrderBook) (side : Side) (price : Price) : PriceLevel :=
  ((b.levels side).lookup price).getD (PriceLevel.new price)

/-- The level once the new order has joined it (steps 4–6). -/
def joinedLevel (b : OrderBook) (side : Side) (price : Price) (qty : Qty) (newIdx : Nat) :
    PriceLevel :=
  let level := linkLevel (b.levelAt side price) newIdx
  { level with totalQty := u32Add level.totalQty qty, orderCount := level.orderCount + 1 }

@[simp] theorem joinedLevel_orderCount (b : OrderBook) (s : Side) (p : Price) (q : Qty) (i : Nat) :
    (b.joinedLevel s p q i).orderCount = (b.levelAt s p).orderCount + 1 := by
  simp [joinedLevel]

@[simp] theorem joinedLevel_totalQty (b : OrderBook) (s : Side) (p : Price) (q : Qty) (i : Nat) :
    (b.joinedLevel s p q i).totalQty = u32Add (b.levelAt s p).totalQty q := by
  simp [joinedLevel]

/-- Steps 3 and 7 of `add_order` on the book's own fields: `order` written to slot `newIdx` of
`pool`, `next_priority` advanced, and the id entered in `order_map`. -/
def storeOrder (b : OrderBook) (pool : MemPool Order orderPoolCapacity) (newIdx : Nat)
    (orderId : OrderId) (order : Order) : OrderBook :=
  { b with orderPool := pool.write newIdx order, nextPriority := b.nextPriority + 1,
           orderMap := b.orderMap.insert orderId newIdx }

@[simp] theorem storeOrder_levels (b : OrderBook) (pool : MemPool Order orderPoolCapacity)
    (i : Nat) (id : OrderId) (o : Order) (s : Side) :
    (b.storeOrder pool i id o).levels s = b.levels s := by cases s <;> rfl

@[simp] theorem storeOrder_orderMap (b : OrderBook) (pool : MemPool Order orderPoolCapacity)
    (i : Nat) (id : OrderId) (o : Order) :
    (b.storeOrder pool i id o).orderMap = b.orderMap.insert id i := rfl

@[simp] theorem storeOrder_orderPool (b : OrderBook) (pool : MemPool Order orderPoolCapacity)
    (i : Nat) (id : OrderId) (o : Order) :
    (b.storeOrder pool i id o).orderPool = pool.write i o := rfl

/-- Steps 3–8 of `add_order`, once slot `newIdx` is allocated (`pool` is the pool after the
allocation). -/
def insertAt (b : OrderBook) (pool : MemPool Order orderPoolCapacity) (newIdx : Nat)
    (clientId : ClientId) (orderId : OrderId) (side : Side) (price : Price) (qty : Qty) :
    OrderBook :=
  (b.storeOrder pool newIdx orderId
      (linkOrder (b.levelAt side price) (b.newOrder clientId orderId side price qty))).setLevels
    side ((b.levels side).insert price (b.joinedLevel side price qty newIdx))

@[simp] theorem insertAt_orderMap (b : OrderBook) (pool : MemPool Order orderPoolCapacity)
    (i : Nat) (c : ClientId) (id : OrderId) (s : Side) (p : Price) (q : Qty) :
    (b.insertAt pool i c id s p q).orderMap = b.orderMap.insert id i := by
  simp [insertAt]

/-- `OrderBook::add_order`; the returned slot stands for the `PoolPtr`. -/
def addOrder (b : OrderBook) (clientId : ClientId) (orderId : OrderId) (side : Side)
    (price : Price) (qty : Qty) : OrderBook × Option Nat :=
  if orderId ∈ b.orderMap then (b, none)
  else match b.orderPool.allocate with
    | none => (b, none)
    | some (newIdx, pool) => (b.insertAt pool newIdx clientId orderId side price qty, some newIdx)

/-! ## `cancel_order` -/

/-- Step 6 of `cancel_order`, the `prev` half. -/
def unlinkPrev (pool : MemPool Order orderPoolCapacity) (level : PriceLevel) (order : Order) :
    MemPool Order orderPoolCapacity × PriceLevel :=
  match order.prevIdx with
  | some prev => (pool.modifyByIndex prev fun o => { o with nextIdx := order.nextIdx }, level)
  | none => (pool, { level with headIdx := order.nextIdx })

/-- Step 6 of `cancel_order`, the `next` half. -/
def unlinkNext (pool : MemPool Order orderPoolCapacity) (level : PriceLevel) (order : Order) :
    MemPool Order orderPoolCapacity × PriceLevel :=
  match order.nextIdx with
  | some next => (pool.modifyByIndex next fun o => { o with prevIdx := order.prevIdx }, level)
  | none => (pool, { level with tailIdx := order.prevIdx })

/-- A write that leaves an order's links aside leaves every slot's unlinked view as it was. -/
theorem modifyByIndex_unlinked (pool : MemPool Order orderPoolCapacity) (i j : Nat)
    {f : Order → Order} (hf : ∀ o, (f o).unlinked = o.unlinked) :
    ((pool.modifyByIndex i f).storage j).unlinked = (pool.storage j).unlinked := by
  unfold MemPool.modifyByIndex; split
  · by_cases h : j = i
    · subst h; simp [hf]
    · simp [Function.update_noteq h]
  · rfl

/-- Steps 6–7 of `cancel_order`: the pool and the level once `order` is unlinked and counted
out. -/
def unlink (pool : MemPool Order orderPoolCapacity) (level : PriceLevel) (order : Order) :
    MemPool Order orderPoolCapacity × PriceLevel :=
  let p₁ := unlinkPrev pool level order
  let p₂ := unlinkNext p₁.1 p₁.2 order
  (p₂.1, { p₂.2 with orderCount := p₂.2.orderCount - 1,
                     totalQty := u32Sub p₂.2.totalQty order.qty })

section Unlink

variable (pool : MemPool Order orderPoolCapacity) (level : PriceLevel) (o : Order)

@[simp] theorem unlink_orderCount :
    (unlink pool level o).2.orderCount = level.orderCount - 1 := by
  unfold unlink unlinkPrev unlinkNext; split <;> split <;> rfl

@[simp] theorem unlink_totalQty :
    (unlink pool level o).2.totalQty = u32Sub level.totalQty o.qty := by
  unfold unlink unlinkPrev unlinkNext; split <;> split <;> rfl

@[simp] theorem unlink_freeSlots : (unlink pool level o).1.freeSlots = pool.freeSlots := by
  unfold unlink unlinkPrev unlinkNext; split <;> split <;> simp

@[simp] theorem unlink_freeCount : (unlink pool level o).1.freeCount = pool.freeCount := by
  unfold unlink unlinkPrev unlinkNext; split <;> split <;> simp

theorem unlinkPrev_unlinked (j : Nat) :
    ((unlinkPrev pool level o).1.storage j).unlinked = (pool.storage j).unlinked := by
  unfold unlinkPrev; split
  · exact modifyByIndex_unlinked _ _ _ fun _ => rfl
  · rfl

theorem unlinkNext_unlinked (j : Nat) :
    ((unlinkNext pool level o).1.storage j).unlinked = (pool.storage j).unlinked := by
  unfold unlinkNext; split
  · exact modifyByIndex_unlinked _ _ _ fun _ => rfl
  · rfl

/-- Unlinking rewrites links only. -/
@[simp] theorem unlink_unlinked (j : Nat) :
    ((unlink pool level o).1.storage j).unlinked = (pool.storage j).unlinked := by
  simp only [unlink, unlinkNext_unlinked, unlinkPrev_unlinked]

end Unlink

/-- Step 9 of `cancel_order` on the book: `deallocate_by_index` on the pool the unlinking
left. -/
def releaseSlot (b : OrderBook) (pool : MemPool Order orderPoolCapacity) (poolIdx : Nat) :
    OrderBook :=
  { b with orderPool := pool.deallocateByIndex poolIdx }

@[simp] theorem releaseSlot_levels (b : OrderBook) (pool : MemPool Order orderPoolCapacity)
    (i : Nat) (s : Side) : (b.releaseSlot pool i).levels s = b.levels s := by cases s <;> rfl

@[simp] theorem releaseSlot_orderMap (b : OrderBook) (pool : MemPool Order orderPoolCapacity)
    (i : Nat) : (b.releaseSlot pool i).orderMap = b.orderMap := rfl

@[simp] theorem releaseSlot_orderPool (b : OrderBook) (pool : MemPool Order orderPoolCapacity)
    (i : Nat) : (b.releaseSlot pool i).orderPool = pool.deallocateByIndex i := rfl

/-- Steps 6–9 of `cancel_order`, once `order` is read from slot `poolIdx` and `level` is its
level (`b` already has the id removed from `order_map`). `order_count -= 1` is never taken below
one here (`OrderBookInvariant`). -/
def removeAt (b : OrderBook) (poolIdx : Nat) (order : Order) (level : PriceLevel) :
    OrderBook :=
  let u := unlink b.orderPool level order
  (b.releaseSlot u.1 poolIdx).setLevels order.side
    (if u.2.orderCount = 0 then (b.levels order.side).erase order.price
     else (b.levels order.side).insert order.price u.2)

@[simp] theorem removeAt_orderMap (b : OrderBook) (i : Nat) (o : Order) (level : PriceLevel) :
    (b.removeAt i o level).orderMap = b.orderMap := by
  simp [removeAt]

@[simp] theorem removeAt_orderPool (b : OrderBook) (i : Nat) (o : Order) (level : PriceLevel) :
    (b.removeAt i o level).orderPool = (unlink b.orderPool level o).1.deallocateByIndex i := by
  simp [removeAt]

/-- Step 1 of `cancel_order`: `order_map.remove(&order_id)`. -/
def eraseId (b : OrderBook) (orderId : OrderId) : OrderBook :=
  { b with orderMap := b.orderMap.erase orderId }

@[simp] theorem eraseId_levels (b : OrderBook) (id : OrderId) (s : Side) :
    (b.eraseId id).levels s = b.levels s := by cases s <;> rfl

@[simp] theorem eraseId_orderMap (b : OrderBook) (id : OrderId) :
    (b.eraseId id).orderMap = b.orderMap.erase id := rfl

@[simp] theorem eraseId_orderPool (b : OrderBook) (id : OrderId) :
    (b.eraseId id).orderPool = b.orderPool := rfl

/-- `OrderBook::cancel_order`. The id leaves `order_map` first; the two `?` that follow return
with it already removed. -/
def cancelOrder (b : OrderBook) (orderId : OrderId) : OrderBook × Option Order :=
  match b.orderMap.lookup orderId with
  | none => (b, none)
  | some poolIdx =>
    let b := b.eraseId orderId
    match b.orderPool.getByIndex poolIdx with
    | none => (b, none)
    | some order =>
      match (b.levels order.side).lookup order.price with
      | none => (b, none)
      | some level => (b.removeAt poolIdx order level, some order)

/-- `OrderBook::order_count`. -/
def orderCount (b : OrderBook) : Nat := b.orderMap.len

/-- `OrderBook::best_bid`: the highest price with a bid level. -/
def bestBid (b : OrderBook) : Option Price := b.bidLevels.keys.max?

/-- `OrderBook::best_ask`: the lowest price with an ask level. -/
def bestAsk (b : OrderBook) : Option Price := b.askLevels.keys.min?

/-- `OrderBook::bid_level_count`. -/
def bidLevelCount (b : OrderBook) : Nat := b.bidLevels.len

/-- `OrderBook::ask_level_count`. -/
def askLevelCount (b : OrderBook) : Nat := b.askLevels.len

/-! ## Views -/

/-- The orders `order_map` reaches, as `(id, order)` with the links forgotten. -/
def resting (b : OrderBook) : List (OrderId × Order) :=
  b.orderMap.entries.map fun e => (e.1, (b.orderPool.storage e.2).unlinked)

/-- The slots of the orders resting at one side and price. -/
def restingSlotsAt (b : OrderBook) (side : Side) (price : Price) : List Nat :=
  (b.orderMap.entries.filter fun e =>
    (b.orderPool.storage e.2).side = side ∧ (b.orderPool.storage e.2).price = price).map (·.2)

/-- The slots reached from `start` along `next_idx`, at most `fuel` of them. -/
def walkNext (pool : MemPool Order orderPoolCapacity) : Option Nat → Nat → List Nat
  | none, _ => []
  | some _, 0 => []
  | some i, fuel + 1 => i :: walkNext pool (pool.storage i).nextIdx fuel

/-- A fresh book for ticker 1 after two buy orders for 10 at 100, ids 1 and 2. -/
def twoBids : OrderBook := (((new 1).addOrder 1 1 .buy 100 10).1.addOrder 1 2 .buy 100 10).1

/-- **The chain breaks at the second order.** Two orders at one level: the level's head and
tail are the two slots, yet the walk from the head along `next_idx` stops after one slot,
because `add_order` never set the old tail's `next_idx`. -/
theorem addOrder_leaves_tail_unlinked :
    (twoBids.bidLevels.lookup 100).map (·.headIdx) = some (some 65535) ∧
      (twoBids.bidLevels.lookup 100).map (·.tailIdx) = some (some 65534) ∧
      (twoBids.restingSlotsAt .buy 100).length = 2 ∧
      walkNext twoBids.orderPool (some 65535) 3 = [65535] := by
  decide

end OrderBook

end LowLatencyTrading
