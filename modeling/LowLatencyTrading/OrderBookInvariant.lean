import LowLatencyTrading.OrderBook

/-!
# The order book's accounting (`exchange/src/order_book.rs`)

What `add_order` and `cancel_order` keep true of every book reachable from `OrderBook::new`,
whatever the ids, sides, prices and quantities:

* the slots `order_map` names are distinct and are exactly the pool's slots off the free list
  (`MemPool.Inv`, with `slots` allocated);
* a `(side, price)` has a level exactly when orders rest there, and the level counts them and
  sums their quantities modulo `2^32` (`LevelMatches`);
* `order_count()` is the sum of the levels' `order_count`.

So `cancel_order` of an id in `order_map` gets past both of its `?` and frees a slot that no
entry names any more. The links play no part: `resting` forgets them, and the unlinking in
`cancel_order` rewrites links only. And the queries read the resting orders: `best_bid` is the
highest price of a resting buy, `best_ask` the lowest of a resting sell, and the level counts
count the distinct prices at which orders rest (`Reachable.queries`).
-/

namespace LowLatencyTrading

namespace OrderBook

/-! ## Views -/

/-- The slots `order_map` names. -/
def slots (b : OrderBook) : List Nat := b.orderMap.entries.map (·.2)

/-- The orders of `l` at one side and price. -/
def levelOrders (l : List (OrderId × Order)) (side : Side) (price : Price) : List Order :=
  (l.filter fun e => e.2.side = side ∧ e.2.price = price).map (·.2)

theorem levelOrders_cons (e : OrderId × Order) (l : List (OrderId × Order)) (s : Side)
    (p : Price) : levelOrders (e :: l) s p =
      if e.2.side = s ∧ e.2.price = p then e.2 :: levelOrders l s p else levelOrders l s p := by
  unfold levelOrders
  by_cases h : e.2.side = s ∧ e.2.price = p
  · rw [if_pos h, List.filter_cons_of_pos (by simpa using h)]; rfl
  · rw [if_neg h, List.filter_cons_of_neg (by simpa using h)]

theorem levelOrders_perm {l l' : List (OrderId × Order)} (h : l.Perm l') (s : Side) (p : Price) :
    (levelOrders l s p).Perm (levelOrders l' s p) :=
  (h.filter _).map _

theorem mem_levelOrders {e : OrderId × Order} {l : List (OrderId × Order)} (he : e ∈ l) :
    e.2 ∈ levelOrders l e.2.side e.2.price :=
  List.mem_map_of_mem _ (List.mem_filter.mpr ⟨he, by simp⟩)

/-- The sum of `order_count` over the levels of both sides. -/
def levelCount (b : OrderBook) : Nat :=
  (b.levels .buy).sumBy (·.orderCount) + (b.levels .sell).sumBy (·.orderCount)

theorem levelCount_congr {b b' : OrderBook} (h : ∀ s, b'.levels s = b.levels s) :
    b'.levelCount = b.levelCount := by
  simp only [levelCount, h]

theorem levelCount_setLevels (b : OrderBook) (s : Side) (m : HashMap Price PriceLevel) :
    (b.setLevels s m).levelCount + (b.levels s).sumBy (·.orderCount) =
      b.levelCount + m.sumBy (·.orderCount) := by
  cases s <;> simp only [levelCount, setLevels, levels] <;> omega

/-! ## What a level entry says -/

/-- What the entry at one side and price says of the orders `os` resting there: there is none
when no order rests there; otherwise it counts them and sums their quantities modulo
`2^32`. -/
def LevelMatches : Option PriceLevel → List Order → Prop
  | none, os => os = []
  | some level, os =>
    level.orderCount = os.length ∧ level.totalQty = (os.map (·.qty)).sum % 2 ^ 32 ∧ os ≠ []

theorem LevelMatches.perm {l : Option PriceLevel} {os os' : List Order} (h : LevelMatches l os)
    (hp : os.Perm os') : LevelMatches l os' := by
  cases l with
  | none => exact (hp.symm.trans (List.Perm.of_eq h)).eq_nil
  | some level =>
    obtain ⟨hc, hq, hne⟩ := h
    exact ⟨hc.trans hp.length_eq, hq.trans (by rw [(hp.map _).sum_eq]),
      fun e => hne (hp.trans (List.Perm.of_eq e)).eq_nil⟩

/-- A new order joins the level `l` (or a new one): the count goes up by one and its quantity
is added. -/
theorem LevelMatches.join {l : Option PriceLevel} {os : List Order} (h : LevelMatches l os)
    (p : Price) (o : Order) {level : PriceLevel}
    (hc : level.orderCount = (l.getD (PriceLevel.new p)).orderCount + 1)
    (hq : level.totalQty = u32Add (l.getD (PriceLevel.new p)).totalQty o.qty) :
    LevelMatches (some level) (o :: os) := by
  refine ⟨?_, ?_, List.cons_ne_nil _ _⟩
  · cases l with
    | none => simp [hc, PriceLevel.new, show os = [] from h]
    | some l => simp [hc, h.1]
  · cases l with
    | none => simp [hq, PriceLevel.new, u32Add, show os = [] from h]
    | some l => simp only [hq, Option.getD_some, h.2.1, u32Add_mod, List.map_cons,
        List.sum_cons, Nat.add_comm]

/-- An order leaves its level: the count goes down by one, its quantity is taken off, and the
entry goes when the count reaches zero. -/
theorem LevelMatches.leave {level level' : PriceLevel} {o : Order} {os : List Order}
    (h : LevelMatches (some level) (o :: os)) (hc : level'.orderCount = level.orderCount - 1)
    (hq : level'.totalQty = u32Sub level.totalQty o.qty) :
    LevelMatches (if level'.orderCount = 0 then none else some level') os := by
  obtain ⟨hc', hq', -⟩ := h
  rw [List.length_cons] at hc'
  split
  · exact List.eq_nil_of_length_eq_zero (by omega)
  · refine ⟨by omega, ?_, fun e => by simp_all⟩
    rw [hq, hq', List.map_cons, List.sum_cons, Nat.add_comm, u32Sub_mod]

/-! ## The invariant -/

/-- The book's accounting. -/
structure Inv (b : OrderBook) : Prop where
  /-- The pool's free list is the complement of the slots `order_map` names. -/
  pool : b.orderPool.Inv b.slots
  /-- Each level entry agrees with the orders resting at its side and price. -/
  levels : ∀ s p, LevelMatches ((b.levels s).lookup p) (levelOrders b.resting s p)
  /-- `order_count()` is the sum of the levels' counts. -/
  total : b.orderCount = b.levelCount

theorem new_inv (t : TickerId) : (new t).Inv where
  pool := MemPool.init_inv _
  levels s p := by cases s <;> rfl
  total := rfl

/-- A level entry exists exactly where orders rest. -/
theorem Inv.isSome_iff {b : OrderBook} (h : b.Inv) (s : Side) (p : Price) :
    ((b.levels s).lookup p).isSome ↔ levelOrders b.resting s p ≠ [] := by
  have hm := h.levels s p
  revert hm
  cases (b.levels s).lookup p with
  | none => simp [LevelMatches]
  | some level => exact fun hm => by simp [hm.2.2]

/-- Every resting order has a level at its own side and price. -/
theorem Inv.has_level {b : OrderBook} (h : b.Inv) {e : OrderId × Order} (he : e ∈ b.resting) :
    ((b.levels e.2.side).lookup e.2.price).isSome :=
  (h.isSome_iff _ _).mpr (List.ne_nil_of_mem (mem_levelOrders he))

/-- A level entry counts the orders resting there, sums their quantities modulo `2^32`, and is
not empty. -/
theorem Inv.level_spec {b : OrderBook} (h : b.Inv) {s : Side} {p : Price} {level : PriceLevel}
    (hl : (b.levels s).lookup p = some level) :
    level.orderCount = (levelOrders b.resting s p).length ∧
      level.totalQty = ((levelOrders b.resting s p).map (·.qty)).sum % 2 ^ 32 ∧
      0 < level.orderCount := by
  have hm := h.levels s p
  rw [hl] at hm
  exact ⟨hm.1, hm.2.1, hm.1 ▸ List.length_pos.mpr hm.2.2⟩

/-! ## `add_order` -/

section Add

variable {b : OrderBook} {pool : MemPool Order orderPoolCapacity} {i : Nat} {c : ClientId}
  {id : OrderId} {s : Side} {p : Price} {q : Qty}

theorem lookup_insertAt (s' : Side) (p' : Price) :
    ((b.insertAt pool i c id s p q).levels s').lookup p' =
      if s' = s ∧ p' = p then some (b.joinedLevel s p q i) else (b.levels s').lookup p' := by
  unfold insertAt
  by_cases hs : s' = s
  · subst hs
    by_cases hp : p' = p
    · subst hp; simp [AList.lookup_insert]
    · simp [hp, AList.lookup_insert_ne hp]
  · simp [hs, levels_setLevels_ne _ _ hs]

theorem slots_insertAt (hid : id ∉ b.orderMap) :
    (b.insertAt pool i c id s p q).slots = i :: b.slots := by
  simp only [insertAt, slots, setLevels_orderMap, storeOrder_orderMap,
    AList.insert_entries_of_neg hid, List.map_cons]

theorem orderCount_insertAt (hid : id ∉ b.orderMap) :
    (b.insertAt pool i c id s p q).orderCount = b.orderCount + 1 := by
  simp only [orderCount, insertAt, setLevels_orderMap, storeOrder_orderMap]
  exact AList.len_insert_of_not_mem hid _

/-- The new order rests first; the others, in slots other than `i`, stay as they were. -/
theorem resting_insertAt (hs : pool.storage = b.orderPool.storage) (hid : id ∉ b.orderMap)
    (hi : i ∉ b.slots) :
    (b.insertAt pool i c id s p q).resting =
      (id, (b.newOrder c id s p q).unlinked) :: b.resting := by
  simp only [insertAt, resting, setLevels_orderMap, setLevels_orderPool, storeOrder_orderMap,
    storeOrder_orderPool, AList.insert_entries_of_neg hid, List.map_cons, MemPool.write_storage,
    Function.update_same, linkOrder_unlinked, hs]
  refine congrArg _ (List.map_congr_left fun e he => ?_)
  have : e.2 ≠ i := fun h => hi (h ▸ List.mem_map_of_mem _ he)
  rw [Function.update_noteq this]

/-- The level's count before the order joins, split off the sum over its side. -/
theorem sumBy_levelAt (b : OrderBook) (s : Side) (p : Price) :
    (b.levels s).sumBy (·.orderCount) =
      (b.levelAt s p).orderCount + ((b.levels s).erase p).sumBy (·.orderCount) := by
  unfold levelAt
  cases h : (b.levels s).lookup p with
  | none => simp [PriceLevel.new, AList.erase_of_not_mem (AList.lookup_eq_none.mp h)]
  | some level => exact AList.sumBy_of_lookup h _

theorem levelCount_insertAt :
    (b.insertAt pool i c id s p q).levelCount = b.levelCount + 1 := by
  have h := levelCount_setLevels (b.storeOrder pool i id
    (linkOrder (b.levelAt s p) (b.newOrder c id s p q))) s
    ((b.levels s).insert p (b.joinedLevel s p q i))
  rw [levelCount_congr (storeOrder_levels _ _ _ _ _), storeOrder_levels, AList.sumBy_insert,
    sumBy_levelAt b s p,
    joinedLevel_orderCount] at h
  unfold insertAt
  omega

/-- **`add_order` keeps the accounting** once a slot is allocated for a new id. -/
theorem Inv.insertAt (h : b.Inv) (hid : id ∉ b.orderMap)
    (ha : b.orderPool.allocate = some (i, pool)) :
    (b.insertAt pool i c id s p q).Inv := by
  obtain ⟨-, hiA, hpool⟩ := h.pool.allocate ha
  have hs : pool.storage = b.orderPool.storage := by
    obtain ⟨-, -, rfl⟩ := MemPool.allocate_eq_some ha; rfl
  have hr : (b.insertAt pool i c id s p q).resting = _ := resting_insertAt hs hid hiA
  refine ⟨?_, fun s' p' => ?_, ?_⟩
  · rw [slots_insertAt hid]
    simpa [OrderBook.insertAt] using hpool.write i _
  · rw [lookup_insertAt, hr, levelOrders_cons]
    by_cases hsp : s' = s ∧ p' = p
    · obtain ⟨rfl, rfl⟩ := hsp
      simp only [newOrder, Order.unlinked, and_self, if_true]
      exact (h.levels s' p').join p' _ (by simp [joinedLevel, levelAt])
        (by simp [joinedLevel, levelAt])
    · have : ¬((b.newOrder c id s p q).unlinked.side = s' ∧
          (b.newOrder c id s p q).unlinked.price = p') := by
        simpa [newOrder, Order.unlinked, eq_comm] using hsp
      simpa only [hsp, this, if_false] using h.levels s' p'
  · rw [orderCount_insertAt hid, levelCount_insertAt, h.total]

theorem Inv.addOrder (h : b.Inv) (c : ClientId) (id : OrderId) (s : Side) (p : Price) (q : Qty) :
    (b.addOrder c id s p q).1.Inv := by
  unfold OrderBook.addOrder
  split
  · exact h
  · split
    · exact h
    · exact h.insertAt ‹_› ‹_›

end Add

/-! ## `cancel_order` -/

section Cancel

variable {b : OrderBook} {poolIdx : Nat} {o : Order} {level : PriceLevel}

theorem lookup_removeAt (s : Side) (p : Price) :
    ((b.removeAt poolIdx o level).levels s).lookup p =
      if s = o.side ∧ p = o.price then
        (if (unlink b.orderPool level o).2.orderCount = 0 then none
         else some (unlink b.orderPool level o).2)
      else (b.levels s).lookup p := by
  unfold removeAt
  by_cases hs : s = o.side
  · subst hs
    by_cases hp : p = o.price
    · subst hp
      simp only [levels_setLevels_self, and_self, if_true]
      split_ifs <;> simp [AList.lookup_erase, AList.lookup_insert]
    · simp only [levels_setLevels_self, hp, and_false, if_false]
      split
      · exact AList.lookup_erase_ne hp
      · exact AList.lookup_insert_ne hp
  · rw [levels_setLevels_ne _ _ hs, releaseSlot_levels, if_neg (by simp [hs])]

@[simp] theorem slots_removeAt : (b.removeAt poolIdx o level).slots = b.slots := by
  simp [removeAt, slots]

@[simp] theorem resting_removeAt : (b.removeAt poolIdx o level).resting = b.resting := by
  simp [removeAt, resting, MemPool.deallocateByIndex_eq]

theorem levelCount_removeAt (hl : (b.levels o.side).lookup o.price = some level)
    (hc : 0 < level.orderCount) : (b.removeAt poolIdx o level).levelCount + 1 = b.levelCount := by
  have h := levelCount_setLevels (b.releaseSlot (unlink b.orderPool level o).1 poolIdx) o.side
    (if (unlink b.orderPool level o).2.orderCount = 0 then (b.levels o.side).erase o.price
     else (b.levels o.side).insert o.price (unlink b.orderPool level o).2)
  have hm : (if (unlink b.orderPool level o).2.orderCount = 0 then (b.levels o.side).erase o.price
      else (b.levels o.side).insert o.price (unlink b.orderPool level o).2).sumBy (·.orderCount) =
      (level.orderCount - 1) + ((b.levels o.side).erase o.price).sumBy (·.orderCount) := by
    split
    · simp_all
    · simp [AList.sumBy_insert]
  rw [hm, releaseSlot_levels, AList.sumBy_of_lookup hl,
    levelCount_congr (releaseSlot_levels _ _ _)] at h
  dsimp only [removeAt]
  omega

theorem slots_perm_eraseId {id : OrderId} (hid : b.orderMap.lookup id = some poolIdx) :
    b.slots.Perm (poolIdx :: (b.eraseId id).slots) :=
  (AList.entries_perm_erase hid).map _

theorem resting_perm_eraseId {id : OrderId} (hid : b.orderMap.lookup id = some poolIdx) :
    b.resting.Perm ((id, (b.orderPool.storage poolIdx).unlinked) :: (b.eraseId id).resting) :=
  (AList.entries_perm_erase hid).map _

/-- **`cancel_order` past its two `?`** keeps the accounting: the id's entry is gone from
`order_map`, and the order it named from its level. -/
theorem Inv.removeAt (h : b.Inv) {id : OrderId} (hid : b.orderMap.lookup id = some poolIdx)
    (hl : (b.levels (b.orderPool.storage poolIdx).side).lookup
      (b.orderPool.storage poolIdx).price = some level) :
    ((b.eraseId id).removeAt poolIdx (b.orderPool.storage poolIdx) level).Inv := by
  set o := b.orderPool.storage poolIdx
  have hslots := slots_perm_eraseId hid
  have hlevel := h.levels o.side o.price
  rw [hl] at hlevel
  refine ⟨?_, fun s p => ?_, ?_⟩
  · rw [slots_removeAt, OrderBook.removeAt, setLevels_orderPool, releaseSlot_orderPool,
      MemPool.deallocateByIndex_eq]
    refine ((h.pool.congr (unlink_freeSlots _ _ _) (unlink_freeCount _ _ _)
      (List.Perm.refl _)).deallocate (hslots.mem_iff.mpr (List.mem_cons_self _ _))).congr
      rfl rfl ?_
    simpa using hslots.erase poolIdx
  · rw [lookup_removeAt, resting_removeAt, eraseId_orderPool, eraseId_levels]
    have hm := (h.levels s p).perm ((levelOrders_perm (resting_perm_eraseId hid) s p).trans
      (List.Perm.of_eq (levelOrders_cons _ _ s p)))
    by_cases hsp : s = o.side ∧ p = o.price
    · obtain ⟨rfl, rfl⟩ := hsp
      simp only [Order.unlinked, and_self, if_true] at hm ⊢
      rw [hl] at hm
      exact hm.leave (unlink_orderCount _ _ _) (unlink_totalQty _ _ _)
    · have : ¬(o.unlinked.side = s ∧ o.unlinked.price = p) := by
        simpa [Order.unlinked, eq_comm] using hsp
      simpa only [hsp, this, if_false] using hm
  · have hn : ((b.eraseId id).removeAt poolIdx o level).orderCount + 1 = b.orderCount := by
      simpa [orderCount, OrderBook.removeAt] using AList.len_erase_of_lookup hid
    have hc : ((b.eraseId id).removeAt poolIdx o level).levelCount + 1 =
        (b.eraseId id).levelCount :=
      levelCount_removeAt (by rwa [eraseId_levels]) (hlevel.1 ▸ List.length_pos.mpr hlevel.2.2)
    rw [levelCount_congr (eraseId_levels _ _)] at hc
    have := h.total
    omega

/-- Under the invariant, `cancel_order` of an id in `order_map` reads the order from its slot,
finds the order's level, and removes the order there. -/
theorem Inv.cancelOrder_eq (h : b.Inv) {id : OrderId} (hid : b.orderMap.lookup id = some poolIdx) :
    b.orderPool.getByIndex poolIdx = some (b.orderPool.storage poolIdx) ∧
      ∃ level, (b.levels (b.orderPool.storage poolIdx).side).lookup
          (b.orderPool.storage poolIdx).price = some level ∧
        b.cancelOrder id = ((b.eraseId id).removeAt poolIdx (b.orderPool.storage poolIdx) level,
          some (b.orderPool.storage poolIdx)) := by
  have hmem := AList.mem_lookup_iff.mp hid
  have hget : b.orderPool.getByIndex poolIdx = some (b.orderPool.storage poolIdx) := by
    simp [MemPool.getByIndex, h.pool.allocated_lt _ (List.mem_map_of_mem (·.2) hmem)]
  obtain ⟨level, hl⟩ := Option.isSome_iff_exists.mp (h.has_level (List.mem_map_of_mem
    (fun e => (e.1, (b.orderPool.storage e.2).unlinked)) hmem))
  refine ⟨hget, level, hl, ?_⟩
  simp only [OrderBook.cancelOrder, hid, eraseId_orderPool, hget, eraseId_levels]
  simp only [Order.unlinked] at hl
  simp only [hl]

theorem Inv.cancelOrder (h : b.Inv) (id : OrderId) : (b.cancelOrder id).1.Inv := by
  cases hid : b.orderMap.lookup id with
  | none => simpa [OrderBook.cancelOrder, hid] using h
  | some poolIdx =>
    obtain ⟨-, level, hl, heq⟩ := h.cancelOrder_eq hid
    rw [heq]
    exact h.removeAt hid hl

/-- `cancel_order` of an id in `order_map` frees the id's slot, which no entry names after. -/
theorem Inv.cancelOrder_frees (h : b.Inv) {id : OrderId}
    (hid : b.orderMap.lookup id = some poolIdx) :
    poolIdx ∉ (b.cancelOrder id).1.slots ∧ poolIdx ∈ (b.cancelOrder id).1.orderPool.freeSlots := by
  obtain ⟨-, level, -, heq⟩ := h.cancelOrder_eq hid
  have hperm := slots_perm_eraseId hid
  have hout : poolIdx ∉ (b.cancelOrder id).1.slots := by
    rw [heq, slots_removeAt]
    exact (List.nodup_cons.mp (hperm.nodup_iff.mp h.pool.allocated_nodup)).1
  exact ⟨hout, ((h.cancelOrder id).pool.mem_free poolIdx).mpr
    ⟨h.pool.allocated_lt _ (hperm.mem_iff.mpr (List.mem_cons_self _ _)), hout⟩⟩

end Cancel

/-! ## Resting quantity -/

/-- The quantity resting on side `s` at price `p`, as an unbounded sum. -/
def levelQty (b : OrderBook) (s : Side) (p : Price) : Nat :=
  ((levelOrders b.resting s p).map (·.qty)).sum

/-- Under the accounting, a side and price with quantity resting have a level. -/
theorem Inv.level_of_levelQty {b : OrderBook} (h : b.Inv) {s : Side} {p : Price}
    (hq : 0 < b.levelQty s p) : ∃ level, (b.levels s).lookup p = some level := by
  have hne : levelOrders b.resting s p ≠ [] := fun he => by simp [levelQty, he] at hq
  exact Option.isSome_iff_exists.mp ((h.isSome_iff s p).mpr hne)

/-- An order that `add_order` places adds its quantity at its side and price. -/
theorem Inv.levelQty_addOrder {b : OrderBook} (h : b.Inv) {c : ClientId} {id : OrderId}
    {s : Side} {p : Price} {q : Qty} (hid : id ∉ b.orderMap)
    (ha : (b.addOrder c id s p q).2.isSome) (s' : Side) (p' : Price) :
    (b.addOrder c id s p q).1.levelQty s' p' =
      b.levelQty s' p' + if s = s' ∧ p = p' then q else 0 := by
  unfold OrderBook.addOrder at ha ⊢
  rw [if_neg hid] at ha ⊢
  cases hal : b.orderPool.allocate with
  | none => simp [hal] at ha
  | some x =>
    obtain ⟨i, pool⟩ := x
    obtain ⟨-, hiA, -⟩ := h.pool.allocate hal
    have hs : pool.storage = b.orderPool.storage := by
      obtain ⟨-, -, rfl⟩ := MemPool.allocate_eq_some hal; rfl
    simp only [levelQty, resting_insertAt hs hid hiA, levelOrders_cons]
    split <;> simp_all [newOrder, Order.unlinked, Nat.add_comm]

/-- The order that `cancel_order` returns takes its quantity away from its side and price. -/
theorem Inv.levelQty_cancelOrder {b : OrderBook} (h : b.Inv) {id : OrderId} {o : Order}
    (ho : (b.cancelOrder id).2 = some o) (s : Side) (p : Price) :
    (b.cancelOrder id).1.levelQty s p + (if o.side = s ∧ o.price = p then o.qty else 0) =
      b.levelQty s p := by
  cases hid : b.orderMap.lookup id with
  | none => simp [OrderBook.cancelOrder, hid] at ho
  | some i =>
    obtain ⟨-, level, -, heq⟩ := h.cancelOrder_eq hid
    rw [heq] at ho ⊢
    cases ho
    have hp := levelOrders_perm (resting_perm_eraseId hid) s p
    rw [levelQty, levelQty, resting_removeAt, (hp.map (·.qty)).sum_eq, levelOrders_cons]
    simp only [Order.unlinked]
    by_cases hsp : (b.orderPool.storage i).side = s ∧ (b.orderPool.storage i).price = p
    · simp [hsp, Nat.add_comm]
    · simp [hsp]

/-! ## Runs -/

/-- The books a run of `add_order` and `cancel_order` calls reaches from `OrderBook::new`. -/
inductive Reachable : OrderBook → Prop
  | new (tickerId : TickerId) : Reachable (OrderBook.new tickerId)
  | addOrder {b : OrderBook} (clientId : ClientId) (orderId : OrderId) (side : Side)
      (price : Price) (qty : Qty) :
      Reachable b → Reachable (b.addOrder clientId orderId side price qty).1
  | cancelOrder {b : OrderBook} (orderId : OrderId) :
      Reachable b → Reachable (b.cancelOrder orderId).1

theorem Reachable.inv {b : OrderBook} (h : Reachable b) : b.Inv := by
  induction h with
  | new t => exact new_inv t
  | addOrder c id s p q _ ih => exact ih.addOrder c id s p q
  | cancelOrder id _ ih => exact ih.cancelOrder id

/-- **The book's accounting holds after every run** of `add_order` and `cancel_order` calls:
`order_map` names distinct slots, exactly those off the free list; each resting order has a
level at its side and price; each level counts the orders resting there and sums their
quantities modulo `2^32`, and exists exactly when some do; `order_count()` is the sum of the
levels' counts. So `cancel_order` of an id in `order_map` passes both of its `?`, returns the
order, and frees its slot, which no entry names after. -/
theorem Reachable.accounting {b : OrderBook} (h : Reachable b) :
    b.slots.Nodup ∧ (∀ i ∈ b.slots, i < orderPoolCapacity) ∧
      (∀ i, i ∈ b.orderPool.freeSlots ↔ i < orderPoolCapacity ∧ i ∉ b.slots) ∧
      (∀ e ∈ b.resting, ((b.levels e.2.side).lookup e.2.price).isSome) ∧
      (∀ s p level, (b.levels s).lookup p = some level →
        level.orderCount = (levelOrders b.resting s p).length ∧
        level.totalQty = ((levelOrders b.resting s p).map (·.qty)).sum % 2 ^ 32 ∧
        0 < level.orderCount) ∧
      (∀ s p, ((b.levels s).lookup p).isSome ↔ levelOrders b.resting s p ≠ []) ∧
      b.orderCount =
        (b.levels .buy).sumBy (·.orderCount) + (b.levels .sell).sumBy (·.orderCount) ∧
      (∀ id i, b.orderMap.lookup id = some i →
        b.orderPool.getByIndex i = some (b.orderPool.storage i) ∧
        (b.cancelOrder id).2 = some (b.orderPool.storage i) ∧
        i ∉ (b.cancelOrder id).1.slots ∧ i ∈ (b.cancelOrder id).1.orderPool.freeSlots) := by
  have hi := h.inv
  refine ⟨hi.pool.allocated_nodup, hi.pool.allocated_lt, hi.pool.mem_free,
    fun _ he => hi.has_level he, fun _ _ _ hl => hi.level_spec hl, hi.isSome_iff, hi.total,
    fun id i hid => ?_⟩
  obtain ⟨hget, level, -, heq⟩ := hi.cancelOrder_eq hid
  exact ⟨hget, by rw [heq], hi.cancelOrder_frees hid⟩

/-- Two buy orders for 10 at 100 take slots 65535 and 65534; `cancel_order(1)` frees 65535, and
a third order for 5 at 100 takes it again. The level then counts two orders for 15, and the
accounting holds with the reused slot named once. -/
theorem accounting_after_reuse :
    let b₂ := (((new 1).addOrder 1 1 .buy 100 10).1.addOrder 1 2 .buy 100 10).1
    let b := ((b₂.cancelOrder 1).1.addOrder 1 3 .buy 100 5).1
    b₂.orderMap.lookup 1 = some 65535 ∧ b.orderMap.lookup 3 = some 65535 ∧
      (b.bidLevels.lookup 100).map (fun l => (l.orderCount, l.totalQty)) = some (2, 15) ∧
      (b.slots.Nodup ∧ (∀ i ∈ b.slots, i < orderPoolCapacity) ∧
        (∀ i, i ∈ b.orderPool.freeSlots ↔ i < orderPoolCapacity ∧ i ∉ b.slots) ∧
        (∀ e ∈ b.resting, ((b.levels e.2.side).lookup e.2.price).isSome) ∧
        (∀ s p level, (b.levels s).lookup p = some level →
          level.orderCount = (levelOrders b.resting s p).length ∧
          level.totalQty = ((levelOrders b.resting s p).map (·.qty)).sum % 2 ^ 32 ∧
          0 < level.orderCount) ∧
        (∀ s p, ((b.levels s).lookup p).isSome ↔ levelOrders b.resting s p ≠ []) ∧
        b.orderCount =
          (b.levels .buy).sumBy (·.orderCount) + (b.levels .sell).sumBy (·.orderCount) ∧
        (∀ id i, b.orderMap.lookup id = some i →
          b.orderPool.getByIndex i = some (b.orderPool.storage i) ∧
          (b.cancelOrder id).2 = some (b.orderPool.storage i) ∧
          i ∉ (b.cancelOrder id).1.slots ∧ i ∈ (b.cancelOrder id).1.orderPool.freeSlots)) :=
  ⟨by decide, by decide, by decide, Reachable.accounting
    (.addOrder 1 3 .buy 100 5 (.cancelOrder 1 (.addOrder 1 2 .buy 100 10
      (.addOrder 1 1 .buy 100 10 (.new 1)))))⟩

/-! ## The queries -/

/-- The distinct prices at which orders of `side` rest. -/
def restingPrices (b : OrderBook) (side : Side) : List Price :=
  ((b.resting.filter (·.2.side = side)).map (·.2.price)).dedup

theorem mem_restingPrices {b : OrderBook} {side : Side} {p : Price} :
    p ∈ b.restingPrices side ↔ levelOrders b.resting side p ≠ [] := by
  simp [restingPrices, levelOrders, List.filter_eq_nil_iff, and_assoc]

/-- A price has a level exactly when orders rest there. -/
theorem Inv.mem_keys {b : OrderBook} (h : b.Inv) (side : Side) (p : Price) :
    p ∈ (b.levels side).keys ↔ p ∈ b.restingPrices side := by
  rw [← AList.mem_keys, ← AList.lookup_isSome, h.isSome_iff, mem_restingPrices]

theorem max?_congr {l₁ l₂ : List Price} (h : ∀ x, x ∈ l₁ ↔ x ∈ l₂) :
    l₁.max? = l₂.max? := by
  haveI : Std.Antisymm (α := Int) (· ≤ ·) := ⟨Int.le_antisymm⟩
  cases h₂ : l₂.max? with
  | none =>
    rw [List.max?_eq_none_iff] at h₂ ⊢
    exact List.eq_nil_iff_forall_not_mem.mpr fun x hx => by simpa [h₂] using (h x).mp hx
  | some a =>
    rw [List.max?_eq_some_iff le_refl max_choice fun _ _ _ => max_le_iff] at h₂ ⊢
    simpa only [h] using h₂

theorem min?_congr {l₁ l₂ : List Price} (h : ∀ x, x ∈ l₁ ↔ x ∈ l₂) :
    l₁.min? = l₂.min? := by
  haveI : Std.Antisymm (α := Int) (· ≤ ·) := ⟨Int.le_antisymm⟩
  cases h₂ : l₂.min? with
  | none =>
    rw [List.min?_eq_none_iff] at h₂ ⊢
    exact List.eq_nil_iff_forall_not_mem.mpr fun x hx => by simpa [h₂] using (h x).mp hx
  | some a =>
    rw [List.min?_eq_some_iff le_refl min_choice fun _ _ _ => le_min_iff] at h₂ ⊢
    simpa only [h] using h₂

/-- A side's level count is the number of distinct prices at which its orders rest. -/
theorem Inv.len_levels {b : OrderBook} (h : b.Inv) (side : Side) :
    (b.levels side).len = (b.restingPrices side).length :=
  calc (b.levels side).len = (b.levels side).keys.length := by
        simp only [AList.len, AList.keys, List.keys, List.length_map]
    _ = _ := ((List.perm_ext_iff_of_nodup (AList.keys_nodup _) (List.nodup_dedup _)).mpr
        (h.mem_keys side)).length_eq

/-- **The book's queries read its resting orders.** After every run of `add_order` and
`cancel_order`, `best_bid` is the highest price of a resting buy order and `best_ask` the
lowest of a resting sell order, `None` when that side is empty, and `bid_level_count` and
`ask_level_count` are the numbers of distinct prices at which buys and sells rest. -/
theorem Reachable.queries {b : OrderBook} (h : Reachable b) :
    b.bestBid = (b.restingPrices .buy).max? ∧ b.bestAsk = (b.restingPrices .sell).min? ∧
      b.bidLevelCount = (b.restingPrices .buy).length ∧
      b.askLevelCount = (b.restingPrices .sell).length :=
  have hi := h.inv
  ⟨max?_congr (hi.mem_keys .buy), min?_congr (hi.mem_keys .sell), hi.len_levels .buy,
    hi.len_levels .sell⟩

theorem two_bids_one_ask_queries :
    let b := ((((new 1).addOrder 1 1 .buy 100 10).1.addOrder 1 2 .buy 99 5).1.addOrder 1 3 .sell
      101 7).1
    b.bestBid = (b.restingPrices .buy).max? ∧ b.bestAsk = (b.restingPrices .sell).min? ∧
      b.bidLevelCount = (b.restingPrices .buy).length ∧
      b.askLevelCount = (b.restingPrices .sell).length :=
  Reachable.queries (.addOrder _ _ _ _ _ (.addOrder _ _ _ _ _ (.addOrder _ _ _ _ _ (.new 1))))

end OrderBook

end LowLatencyTrading
