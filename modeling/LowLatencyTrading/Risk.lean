import LowLatencyTrading.Position

/-!
# Pre-trade risk (`trading/src/risk.rs`)

`RiskManager` keeps limits per ticker and a default for the others. `check_order` rejects an
order larger than `max_order_qty`, an order after which the position with every pending order
of the same side filled would exceed `max_position` in absolute value, and any order while the
loss exceeds `max_loss`; `check_order_with_open_orders` first rejects when the ticker already
has `max_open_orders` pending orders.

What an `Allowed` promises (`checkOrderWithOpenOrders_allowed`) is what the trade engine's
exposure bound rests on.
-/

namespace LowLatencyTrading

/-- `RiskCheckResult`. -/
inductive RiskCheckResult where
  | allowed
  | orderTooLarge
  | positionTooLarge
  | lossTooLarge
  | openOrdersTooMany
  deriving DecidableEq, Repr

/-- `is_allowed`. -/
def RiskCheckResult.isAllowed : RiskCheckResult → Bool
  | .allowed => true
  | _ => false

/-- `RiskLimits`. -/
structure RiskLimits where
  maxOrderQty : Qty
  maxPosition : Int
  maxLoss : Int
  maxOpenOrders : Nat
  deriving DecidableEq, Repr

/-- `RiskLimits::default()`. -/
instance : Inhabited RiskLimits := ⟨⟨1000, 10000, 100000, 100⟩⟩

/-- `RiskLimits::new`. -/
def RiskLimits.new (maxOrderQty : Qty) (maxPosition maxLoss : Int) (maxOpenOrders : Nat) :
    RiskLimits :=
  ⟨maxOrderQty, maxPosition, maxLoss, maxOpenOrders⟩

/-- Each limit of `l'` is at most the same limit of `l`: `l'` is the tighter set. -/
structure RiskLimits.Tighter (l' l : RiskLimits) : Prop where
  maxOrderQty : l'.maxOrderQty ≤ l.maxOrderQty
  maxPosition : l'.maxPosition ≤ l.maxPosition
  maxLoss : l'.maxLoss ≤ l.maxLoss
  maxOpenOrders : l'.maxOpenOrders ≤ l.maxOpenOrders

/-- The loss floor of `check_order` and `check_position`, `-max_loss` as an `i64`, goes down as
`max_loss` goes up, as long as the smaller one is not `i64::MIN`, whose negation wraps to
itself. -/
theorem lossFloor_le {l' l : Int} (h : l' ≤ l) (h' : -2 ^ 63 < l') (hl : l < 2 ^ 63) :
    i64Wrap (-l) ≤ i64Wrap (-l') := by
  rw [i64Wrap_of_range (by omega) (by omega), i64Wrap_of_range (by omega) (by omega)]
  omega

/-- `RiskManager`. -/
structure RiskManager where
  limits : HashMap TickerId RiskLimits
  defaultLimits : RiskLimits

namespace RiskManager

/-- `RiskManager::new`. -/
def new : RiskManager := ⟨∅, default⟩

/-- `RiskManager::with_default_limits`. -/
def withDefaultLimits (defaultLimits : RiskLimits) : RiskManager := ⟨∅, defaultLimits⟩

/-- `set_limits`. -/
def setLimits (rm : RiskManager) (tickerId : TickerId) (limits : RiskLimits) : RiskManager :=
  { rm with limits := rm.limits.insert tickerId limits }

/-- `remove_limits`. -/
def removeLimits (rm : RiskManager) (tickerId : TickerId) : RiskManager :=
  { rm with limits := rm.limits.erase tickerId }

/-- `get_limits`. -/
def getLimits (rm : RiskManager) (tickerId : TickerId) : RiskLimits :=
  (rm.limits.lookup tickerId).getD rm.defaultLimits

@[simp] theorem getLimits_new (t : TickerId) : RiskManager.new.getLimits t = default := rfl

/-- The `projected_position` of `check_order`: the position with every pending order of the
side, and this one, filled. -/
def projectedPosition (position : Position) (side : Side) (qty : Qty) : Int :=
  match side with
  | .buy => i64Wrap (position.maxLongExposure + qty)
  | .sell => i64Wrap (position.maxShortExposure - qty)

/-- `check_order`. -/
def checkOrder (rm : RiskManager) (position : Position) (side : Side) (qty : Qty)
    (_price : Price) : RiskCheckResult :=
  let limits := rm.getLimits position.tickerId
  if qty > limits.maxOrderQty then .orderTooLarge
  else if i64Abs (projectedPosition position side qty) > limits.maxPosition then .positionTooLarge
  else if position.totalPnl < i64Wrap (-limits.maxLoss) then .lossTooLarge
  else .allowed

/-- `check_open_orders`. -/
def checkOpenOrders (rm : RiskManager) (tickerId : TickerId) (currentOpenOrders : Nat) :
    RiskCheckResult :=
  if currentOpenOrders ≥ (rm.getLimits tickerId).maxOpenOrders then .openOrdersTooMany
  else .allowed

/-- `check_position`. -/
def checkPosition (rm : RiskManager) (position : Position) : RiskCheckResult :=
  let limits := rm.getLimits position.tickerId
  if i64Abs position.position > limits.maxPosition then .positionTooLarge
  else if position.totalPnl < i64Wrap (-limits.maxLoss) then .lossTooLarge
  else .allowed

/-- `check_order_with_open_orders`: the open-order count first. -/
def checkOrderWithOpenOrders (rm : RiskManager) (position : Position) (side : Side) (qty : Qty)
    (price : Price) (currentOpenOrders : Nat) : RiskCheckResult :=
  let openOrdersResult := rm.checkOpenOrders position.tickerId currentOpenOrders
  if !openOrdersResult.isAllowed then openOrdersResult
  else rm.checkOrder position side qty price

theorem checkOrder_allowed {rm : RiskManager} {position : Position} {side : Side} {qty : Qty}
    {price : Price} (h : rm.checkOrder position side qty price = .allowed) :
    qty ≤ (rm.getLimits position.tickerId).maxOrderQty ∧
      i64Abs (projectedPosition position side qty) ≤
        (rm.getLimits position.tickerId).maxPosition := by
  unfold checkOrder at h
  dsimp only at h
  split_ifs at h with hq hp
  exact ⟨Nat.le_of_not_lt hq, Int.not_lt.mp hp⟩

/-- **What an `Allowed` promises**: the ticker has fewer than `max_open_orders` pending orders,
the order is at most `max_order_qty`, and the projected position, wrapped as `i64`, is at most
`max_position` in absolute value. -/
theorem checkOrderWithOpenOrders_allowed {rm : RiskManager} {position : Position} {side : Side}
    {qty : Qty} {price : Price} {n : Nat}
    (h : rm.checkOrderWithOpenOrders position side qty price n = .allowed) :
    n < (rm.getLimits position.tickerId).maxOpenOrders ∧
      qty ≤ (rm.getLimits position.tickerId).maxOrderQty ∧
      i64Abs (projectedPosition position side qty) ≤
        (rm.getLimits position.tickerId).maxPosition := by
  unfold checkOrderWithOpenOrders checkOpenOrders at h
  by_cases hn : n ≥ (rm.getLimits position.tickerId).maxOpenOrders
  · simp [hn, RiskCheckResult.isAllowed] at h
  · exact ⟨Nat.lt_of_not_le hn,
      checkOrder_allowed (by simpa [hn, RiskCheckResult.isAllowed] using h)⟩

/-! ## Tightening the limits -/

section Tighter

variable {rm' rm : RiskManager} {position : Position}

/-- `check_position` allows under tighter limits only what it allows under looser ones, while
the tighter `max_loss` is above `i64::MIN`. -/
theorem checkPosition_mono
    (ht : (rm'.getLimits position.tickerId).Tighter (rm.getLimits position.tickerId))
    (h' : -2 ^ 63 < (rm'.getLimits position.tickerId).maxLoss)
    (hl : (rm.getLimits position.tickerId).maxLoss < 2 ^ 63)
    (h : rm'.checkPosition position = .allowed) : rm.checkPosition position = .allowed := by
  unfold checkPosition at h ⊢
  have hf := lossFloor_le ht.maxLoss h' hl
  have hp := ht.maxPosition
  dsimp only at h ⊢
  split_ifs at h with hp' hloss
  rw [if_neg (by omega), if_neg (by omega)]

/-- `check_order` allows under tighter limits only what it allows under looser ones, while the
tighter `max_loss` is above `i64::MIN`. -/
theorem checkOrder_mono {side : Side} {qty : Qty} {price : Price}
    (ht : (rm'.getLimits position.tickerId).Tighter (rm.getLimits position.tickerId))
    (h' : -2 ^ 63 < (rm'.getLimits position.tickerId).maxLoss)
    (hl : (rm.getLimits position.tickerId).maxLoss < 2 ^ 63)
    (h : rm'.checkOrder position side qty price = .allowed) :
    rm.checkOrder position side qty price = .allowed := by
  unfold checkOrder at h ⊢
  have hf := lossFloor_le ht.maxLoss h' hl
  have hq := ht.maxOrderQty
  have hp := ht.maxPosition
  dsimp only [Qty] at h hq ⊢
  split_ifs at h with hq' hp' hloss
  rw [if_neg (by omega), if_neg (by omega), if_neg (by omega)]

/-- **Tighter limits never allow more**, except through `-i64::MIN`. For every position, order
and open-order count, and limits `L'` tighter than `L` field by field with `L'.max_loss` above
`i64::MIN`: whatever `check_order_with_open_orders`, `check_order` or `check_position` allows
under `L'` it allows under `L`. -/
theorem tighter_limits_allow_less {side : Side} {qty : Qty} {price : Price} {n : Nat}
    (ht : (rm'.getLimits position.tickerId).Tighter (rm.getLimits position.tickerId))
    (h' : -2 ^ 63 < (rm'.getLimits position.tickerId).maxLoss)
    (hl : (rm.getLimits position.tickerId).maxLoss < 2 ^ 63) :
    (rm'.checkOrderWithOpenOrders position side qty price n = .allowed →
        rm.checkOrderWithOpenOrders position side qty price n = .allowed) ∧
      (rm'.checkOrder position side qty price = .allowed →
        rm.checkOrder position side qty price = .allowed) ∧
      (rm'.checkPosition position = .allowed → rm.checkPosition position = .allowed) := by
  refine ⟨fun h => ?_, checkOrder_mono ht h' hl, checkPosition_mono ht h' hl⟩
  unfold checkOrderWithOpenOrders checkOpenOrders at h ⊢
  have ho := ht.maxOpenOrders
  by_cases hn : n ≥ (rm'.getLimits position.tickerId).maxOpenOrders
  · simp [hn, RiskCheckResult.isAllowed] at h
  · rw [if_neg hn] at h
    rw [if_neg fun hge => hn (le_trans ho hge)]
    simp only [RiskCheckResult.isAllowed, Bool.not_true, Bool.false_eq_true, if_false] at h ⊢
    exact checkOrder_mono ht h' hl h

end Tighter

/-- The default limits with `max_loss` set to `maxLoss`. -/
def lossLimits (maxLoss : Int) : RiskLimits := ⟨1000, 10000, maxLoss, 100⟩

/-- A buy of 10 that a manager allowing no loss at all lets through, `RiskManager::new` lets
through too. -/
theorem no_loss_allows_less :
    RiskManager.new.checkOrder (Position.new 1) .buy 10 100 = .allowed :=
  (@tighter_limits_allow_less (withDefaultLimits (lossLimits 0)) RiskManager.new (Position.new 1)
    .buy 10 100 0 ⟨by decide, by decide, by decide, by decide⟩ (by decide) (by decide)).2.1
    (by decide)

/-- **`-max_loss` wraps at `i64::MIN`.** Limits with `max_loss = i64::MIN` are tighter than the
same limits with `max_loss = i64::MIN + 1`, yet a fresh position may buy 1 under the first and
not under the second: `-i64::MIN` wraps to `i64::MIN`, which no P&L is below, while
`-(i64::MIN + 1)` is `i64::MAX`, which a P&L of 0 is below. -/
theorem loss_floor_wraps :
    (lossLimits (-2 ^ 63)).Tighter (lossLimits (-2 ^ 63 + 1)) ∧
      (withDefaultLimits (lossLimits (-2 ^ 63))).checkOrderWithOpenOrders (Position.new 1) .buy 1
        100 0 = .allowed ∧
      (withDefaultLimits (lossLimits (-2 ^ 63 + 1))).checkOrderWithOpenOrders (Position.new 1)
        .buy 1 100 0 = .lossTooLarge ∧
      (withDefaultLimits (lossLimits (-2 ^ 63))).checkPosition (Position.new 1) = .allowed ∧
      (withDefaultLimits (lossLimits (-2 ^ 63 + 1))).checkPosition (Position.new 1) =
        .lossTooLarge :=
  ⟨⟨le_rfl, le_rfl, by decide, le_rfl⟩, by decide, by decide, by decide, by decide⟩

end RiskManager

end LowLatencyTrading
