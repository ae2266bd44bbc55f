import LowLatencyTrading.Basic

/-!
# Positions (`trading/src/position.rs`)

A `Position` follows one ticker: the net position, the quantity of the pending orders on each
side, the volume traded and the P&L. `PositionKeeper` holds one position per ticker and a cached
total P&L.

Arithmetic is that of a release build: every `i64` result wraps (`i64Wrap`), `open_buy_qty` and
`open_sell_qty` are `u32`s that add with wrapping (`u32Add`) and subtract with saturation, and
`volume_traded` is a `u64`. The risk checks read only the position and the pending quantities
(`maxLongExposure`, `maxShortExposure`) and the total P&L, and a fill moves the position by its
signed quantity and the pending quantities not at all (`onFill_position`, `onFill_openBuyQty`).
-/

namespace LowLatencyTrading

/-- `i64::abs`: `|i64::MIN|` wraps to itself. -/
def i64Abs (x : Int) : Int := i64Wrap x.natAbs

/-- Within the `i64` range, a bound on `i64Abs` bounds the value on both sides. -/
theorem le_of_i64Abs_le {x L : Int} (h₁ : -2 ^ 63 < x) (h₂ : x < 2 ^ 63) (h : i64Abs x ≤ L) :
    -L ≤ x ∧ x ≤ L := by
  rw [i64Abs, i64Wrap_of_range (by omega) (by omega)] at h
  rcases Int.natAbs_eq x with hx | hx <;> omega

/-- `Position`. -/
structure Position where
  tickerId : TickerId
  position : Int
  openBuyQty : Qty
  openSellQty : Qty
  volumeTraded : Nat
  realizedPnl : Int
  unrealizedPnl : Int
  avgOpenPrice : Price
  lastPrice : Price
  deriving DecidableEq, Repr

namespace Position

/-- `Position::new`. -/
def new (tickerId : TickerId) : Position := ⟨tickerId, 0, 0, 0, 0, 0, 0, 0, 0⟩

/-- `update_unrealized_pnl`. -/
def updateUnrealizedPnl (p : Position) : Position :=
  if p.position = 0 then { p with unrealizedPnl := 0 }
  else if p.position > 0 then
    { p with unrealizedPnl := i64Wrap (i64Wrap (p.lastPrice - p.avgOpenPrice) * p.position) }
  else
    { p with unrealizedPnl :=
        i64Wrap (i64Wrap (p.avgOpenPrice - p.lastPrice) * i64Wrap (-p.position)) }

/-- The signed quantity of a fill: `qty as i64` for a buy, its negation for a sell. -/
def signedQty (side : Side) (qty : Qty) : Int :=
  match side with
  | .buy => qty
  | .sell => -(qty : Int)

/-- `Position::on_fill`: the realized P&L of the part that closes the position, the average
price of the part that opens or adds to it, then the new position and its unrealized P&L. -/
def onFill (p : Position) (side : Side) (qty : Qty) (price : Price) : Position :=
  let signedQty := signedQty side qty
  let p := { p with volumeTraded := (p.volumeTraded + qty) % 2 ^ 64, lastPrice := price }
  let oldPosition := p.position
  let newPosition := i64Wrap (oldPosition + signedQty)
  let p :=
    if oldPosition = 0 then { p with avgOpenPrice := price }
    else if (oldPosition > 0 ∧ signedQty < 0) ∨ (oldPosition < 0 ∧ signedQty > 0) then
      let closingQty := min (i64Abs oldPosition) signedQty.natAbs
      let pnlPerUnit :=
        if oldPosition > 0 then i64Wrap (price - p.avgOpenPrice)
        else i64Wrap (p.avgOpenPrice - price)
      let p := { p with realizedPnl := i64Wrap (p.realizedPnl + i64Wrap (pnlPerUnit * closingQty)) }
      if newPosition ≠ 0 ∧ ¬(newPosition > 0 ↔ oldPosition > 0) then
        { p with avgOpenPrice := price }
      else p
    else
      let totalCost :=
        i64Wrap (i64Wrap (p.avgOpenPrice * i64Abs oldPosition) + i64Wrap (price * signedQty.natAbs))
      { p with avgOpenPrice := i64Wrap (totalCost.tdiv (i64Abs newPosition)) }
  { p with position := newPosition }.updateUnrealizedPnl

/-- `add_open_order`. -/
def addOpenOrder (p : Position) (side : Side) (qty : Qty) : Position :=
  match side with
  | .buy => { p with openBuyQty := u32Add p.openBuyQty qty }
  | .sell => { p with openSellQty := u32Add p.openSellQty qty }

/-- `remove_open_order`: `saturating_sub`. -/
def removeOpenOrder (p : Position) (side : Side) (qty : Qty) : Position :=
  match side with
  | .buy => { p with openBuyQty := p.openBuyQty - qty }
  | .sell => { p with openSellQty := p.openSellQty - qty }

/-- `update_market_price`. -/
def updateMarketPrice (p : Position) (price : Price) : Position :=
  { p with lastPrice := price }.updateUnrealizedPnl

/-- `total_pnl`. -/
def totalPnl (p : Position) : Int := i64Wrap (p.realizedPnl + p.unrealizedPnl)

/-- `max_long_exposure`: the position with every pending buy filled. -/
def maxLongExposure (p : Position) : Int := i64Wrap (p.position + p.openBuyQty)

/-- `max_short_exposure`: the position with every pending sell filled. -/
def maxShortExposure (p : Position) : Int := i64Wrap (p.position - p.openSellQty)

/-! ### What the updates keep -/

@[simp] theorem updateUnrealizedPnl_tickerId (p : Position) :
    p.updateUnrealizedPnl.tickerId = p.tickerId := by
  unfold updateUnrealizedPnl; split_ifs <;> rfl

@[simp] theorem updateUnrealizedPnl_position (p : Position) :
    p.updateUnrealizedPnl.position = p.position := by
  unfold updateUnrealizedPnl; split_ifs <;> rfl

@[simp] theorem updateUnrealizedPnl_openBuyQty (p : Position) :
    p.updateUnrealizedPnl.openBuyQty = p.openBuyQty := by
  unfold updateUnrealizedPnl; split_ifs <;> rfl

@[simp] theorem updateUnrealizedPnl_openSellQty (p : Position) :
    p.updateUnrealizedPnl.openSellQty = p.openSellQty := by
  unfold updateUnrealizedPnl; split_ifs <;> rfl

/-- The fields a fill leaves alone, and the new position. -/
theorem onFill_fields (p : Position) (side : Side) (qty : Qty) (price : Price) :
    (p.onFill side qty price).tickerId = p.tickerId ∧
      (p.onFill side qty price).openBuyQty = p.openBuyQty ∧
      (p.onFill side qty price).openSellQty = p.openSellQty ∧
      (p.onFill side qty price).position = i64Wrap (p.position + signedQty side qty) := by
  unfold onFill
  dsimp only
  split_ifs <;> simp

@[simp] theorem onFill_tickerId (p : Position) (side : Side) (qty : Qty) (price : Price) :
    (p.onFill side qty price).tickerId = p.tickerId := (onFill_fields p side qty price).1

@[simp] theorem onFill_openBuyQty (p : Position) (side : Side) (qty : Qty) (price : Price) :
    (p.onFill side qty price).openBuyQty = p.openBuyQty := (onFill_fields p side qty price).2.1

@[simp] theorem onFill_openSellQty (p : Position) (side : Side) (qty : Qty) (price : Price) :
    (p.onFill side qty price).openSellQty = p.openSellQty := (onFill_fields p side qty price).2.2.1

@[simp] theorem onFill_position (p : Position) (side : Side) (qty : Qty) (price : Price) :
    (p.onFill side qty price).position = i64Wrap (p.position + signedQty side qty) :=
  (onFill_fields p side qty price).2.2.2

@[simp] theorem updateMarketPrice_tickerId (p : Position) (price : Price) :
    (p.updateMarketPrice price).tickerId = p.tickerId := by simp [updateMarketPrice]

@[simp] theorem updateMarketPrice_position (p : Position) (price : Price) :
    (p.updateMarketPrice price).position = p.position := by simp [updateMarketPrice]

@[simp] theorem updateMarketPrice_openBuyQty (p : Position) (price : Price) :
    (p.updateMarketPrice price).openBuyQty = p.openBuyQty := by simp [updateMarketPrice]

@[simp] theorem updateMarketPrice_openSellQty (p : Position) (price : Price) :
    (p.updateMarketPrice price).openSellQty = p.openSellQty := by simp [updateMarketPrice]

@[simp] theorem addOpenOrder_tickerId (p : Position) (side : Side) (qty : Qty) :
    (p.addOpenOrder side qty).tickerId = p.tickerId := by cases side <;> rfl

@[simp] theorem removeOpenOrder_tickerId (p : Position) (side : Side) (qty : Qty) :
    (p.removeOpenOrder side qty).tickerId = p.tickerId := by cases side <;> rfl

@[simp] theorem new_tickerId (t : TickerId) : (new t).tickerId = t := rfl

@[simp] theorem new_totalPnl (t : TickerId) : (new t).totalPnl = 0 := rfl

/-- The pending quantities are not part of the P&L. -/
@[simp] theorem addOpenOrder_totalPnl (p : Position) (side : Side) (qty : Qty) :
    (p.addOpenOrder side qty).totalPnl = p.totalPnl := by cases side <;> rfl

@[simp] theorem removeOpenOrder_totalPnl (p : Position) (side : Side) (qty : Qty) :
    (p.removeOpenOrder side qty).totalPnl = p.totalPnl := by cases side <;> rfl

end Position

/-- `PositionKeeper`. -/
structure PositionKeeper where
  positions : HashMap TickerId Position
  totalPnl : Int

namespace PositionKeeper

/-- `PositionKeeper::new`. -/
def new : PositionKeeper := ⟨∅, 0⟩

/-- `get_position`. -/
def getPosition (k : PositionKeeper) (tickerId : TickerId) : Option Position :=
  k.positions.lookup tickerId

/-- The position of a ticker, or `Position::new` for a ticker without one, as `get_position_mut`
creates it and `check_order_risk` reads it. -/
def positionOf (k : PositionKeeper) (tickerId : TickerId) : Position :=
  (k.getPosition tickerId).getD (Position.new tickerId)

/-- `get_position_mut(ticker_id)`, then `f` on the position it returns. -/
def modifyPosition (k : PositionKeeper) (tickerId : TickerId) (f : Position → Position) :
    PositionKeeper :=
  { k with positions := k.positions.insert tickerId (f (k.positionOf tickerId)) }

/-- `recalculate_total_pnl`: the wrapping `i64` sum of every position's total P&L. -/
def recalculateTotalPnl (k : PositionKeeper) : PositionKeeper :=
  { k with totalPnl := i64Wrap (k.positions.entries.map fun e => e.2.totalPnl).sum }

/-- `PositionKeeper::on_fill`. -/
def onFill (k : PositionKeeper) (tickerId : TickerId) (side : Side) (qty : Qty) (price : Price) :
    PositionKeeper :=
  (k.modifyPosition tickerId (·.onFill side qty price)).recalculateTotalPnl

/-- `PositionKeeper::update_market_price`: only a ticker that has a position. -/
def updateMarketPrice (k : PositionKeeper) (tickerId : TickerId) (price : Price) :
    PositionKeeper :=
  match k.positions.lookup tickerId with
  | some position =>
    { k with positions := k.positions.insert tickerId (position.updateMarketPrice price) }
      |>.recalculateTotalPnl
  | none => k

theorem positionOf_modifyPosition (k : PositionKeeper) (t : TickerId) (f : Position → Position)
    (t' : TickerId) :
    (k.modifyPosition t f).positionOf t' =
      if t' = t then f (k.positionOf t) else k.positionOf t' := by
  by_cases h : t' = t
  · subst h; simp [positionOf, getPosition, modifyPosition, AList.lookup_insert]
  · simp [positionOf, getPosition, modifyPosition, AList.lookup_insert_ne h, h]

@[simp] theorem recalculateTotalPnl_positions (k : PositionKeeper) :
    k.recalculateTotalPnl.positions = k.positions := rfl

theorem positionOf_onFill (k : PositionKeeper) (t : TickerId) (side : Side) (qty : Qty)
    (price : Price) (t' : TickerId) :
    (k.onFill t side qty price).positionOf t' =
      if t' = t then (k.positionOf t).onFill side qty price else k.positionOf t' :=
  positionOf_modifyPosition k t (·.onFill side qty price) t'

/-- A market price touches no position, pending quantity or ticker id. -/
theorem positionOf_updateMarketPrice (k : PositionKeeper) (t : TickerId) (price : Price)
    (t' : TickerId) :
    ((k.updateMarketPrice t price).positionOf t').tickerId = (k.positionOf t').tickerId ∧
      ((k.updateMarketPrice t price).positionOf t').position = (k.positionOf t').position ∧
      ((k.updateMarketPrice t price).positionOf t').openBuyQty = (k.positionOf t').openBuyQty ∧
      ((k.updateMarketPrice t price).positionOf t').openSellQty =
        (k.positionOf t').openSellQty := by
  unfold updateMarketPrice
  split
  · next p hp =>
    by_cases h : t' = t
    · subst h; simp [positionOf, getPosition, recalculateTotalPnl, AList.lookup_insert, hp]
    · simp [positionOf, getPosition, recalculateTotalPnl, AList.lookup_insert_ne h]
  · exact ⟨rfl, rfl, rfl, rfl⟩

/-- Every position is stored under its own ticker. -/
def Keyed (k : PositionKeeper) : Prop := ∀ t, (k.positionOf t).tickerId = t

theorem Keyed.modifyPosition {k : PositionKeeper} (h : k.Keyed) (t : TickerId)
    {f : Position → Position} (hf : ∀ p, (f p).tickerId = p.tickerId) :
    (k.modifyPosition t f).Keyed := fun t' => by
  rw [positionOf_modifyPosition]
  split_ifs with ht
  · rw [hf, h, ht]
  · exact h t'

theorem Keyed.onFill {k : PositionKeeper} (h : k.Keyed) (t : TickerId) (side : Side) (qty : Qty)
    (price : Price) : (k.onFill t side qty price).Keyed :=
  h.modifyPosition t fun p => p.onFill_tickerId side qty price

theorem Keyed.updateMarketPrice {k : PositionKeeper} (h : k.Keyed) (t : TickerId) (price : Price) :
    (k.updateMarketPrice t price).Keyed := fun t' =>
  (positionOf_updateMarketPrice k t price t').1.trans (h t')

/-! ### The cached total -/

/-- The wrapping `i64` sum of every position's total P&L, which `recalculate_total_pnl`
stores. -/
def positionsPnl (k : PositionKeeper) : Int := i64Wrap (k.positions.entries.map fun e => e.2.totalPnl).sum

/-- The cached total is the sum over the positions. -/
def Coherent (k : PositionKeeper) : Prop := k.totalPnl = k.positionsPnl

theorem Coherent.new : PositionKeeper.new.Coherent := rfl

theorem recalculateTotalPnl_coherent (k : PositionKeeper) : k.recalculateTotalPnl.Coherent := rfl

/-- A change to one position that keeps its total P&L keeps the sum: a ticker without a position
gets `Position::new`, whose P&L is 0. -/
theorem positionsPnl_modifyPosition (k : PositionKeeper) (t : TickerId) {f : Position → Position}
    (hf : ∀ p, (f p).totalPnl = p.totalPnl) : (k.modifyPosition t f).positionsPnl = k.positionsPnl := by
  unfold positionsPnl modifyPosition positionOf getPosition
  dsimp only
  rw [AList.insert_entries]
  cases hl : k.positions.lookup t with
  | none =>
    rw [List.kerase_of_not_mem_keys (AList.lookup_eq_none.mp hl)]
    simp [hf]
  | some p =>
    rw [((AList.entries_perm_erase hl).map _).sum_eq]
    simp [hf, AList.erase]

/-- `get_position_mut` followed by a change that keeps the position's P&L leaves the cache
right without `recalculate_total_pnl`. -/
theorem Coherent.modifyPosition {k : PositionKeeper} (h : k.Coherent) (t : TickerId)
    {f : Position → Position} (hf : ∀ p, (f p).totalPnl = p.totalPnl) :
    (k.modifyPosition t f).Coherent :=
  h.trans (positionsPnl_modifyPosition k t hf).symm

theorem Coherent.onFill (k : PositionKeeper) (t : TickerId) (side : Side) (qty : Qty)
    (price : Price) : (k.onFill t side qty price).Coherent :=
  recalculateTotalPnl_coherent _

theorem Coherent.updateMarketPrice {k : PositionKeeper} (h : k.Coherent) (t : TickerId)
    (price : Price) : (k.updateMarketPrice t price).Coherent := by
  unfold PositionKeeper.updateMarketPrice
  split
  · exact recalculateTotalPnl_coherent _
  · exact h

end PositionKeeper

end LowLatencyTrading
