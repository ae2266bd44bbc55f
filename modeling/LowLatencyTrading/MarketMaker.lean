import LowLatencyTrading.LiquidityTaker

/-!
# The market maker (`trading/src/strategies/market_maker.rs`), and when the strategies panic

A strategy that quotes a bid and an ask around the fair value, the half spread widened by the
book imbalance and both prices skewed against it, with quantities skewed against the current
position. It quotes again only when either price moves by `price_update_threshold`.

* **The model** — `MarketMakerConfig` and its builders, and every method of `MarketMaker`, with
  `f64` as the `F64` of `F64.lean`. Signed arithmetic wraps as in a release build
  (`i64::MIN.abs()` and `-i64::MIN` included), float-to-integer casts saturate, and a panic is
  `none`.
* **The one panic** — `Ord::clamp(1, max_qty)` asserts `1 <= max_qty`. `on_features` panics
  exactly when it quotes with `max_qty = 0` (`onFeatures_eq_none_iff`), and the liquidity taker
  exactly when `calculate_quantity` scales with the signal at `max_qty = 0`. So with
  `max_qty ≥ 1` neither strategy ever panics (`strategies_never_panic`), and every
  configuration built with `with_max_qty(0)` does (`zero_max_qty_panics`).
* **Quote sizes** — every order of a quote has a quantity in `[1, max_qty]`
  (`quote_qty_bounds`).
-/

namespace LowLatencyTrading

/-- `Ord::clamp(self, min, max)` on an integer: its `assert!(min <= max)` panics when
`min > max`. -/
def ordClamp (x lo hi : Nat) : Option Nat :=
  if lo ≤ hi then some (if x < lo then lo else if x > hi then hi else x) else none

@[simp] theorem ordClamp_eq_none_iff {x lo hi : Nat} : ordClamp x lo hi = none ↔ hi < lo := by
  unfold ordClamp
  split_ifs <;> simp only [reduceCtorEq, false_iff, true_iff, not_lt] <;> omega

theorem ordClamp_bounds {x lo hi y : Nat} (h : ordClamp x lo hi = some y) :
    lo ≤ y ∧ y ≤ hi := by
  unfold ordClamp at h
  split_ifs at h <;> simp only [Option.some.injEq, reduceCtorEq] at h <;> omega

/-! ## Configuration -/

/-- `MarketMakerConfig`. -/
structure MarketMakerConfig where
  tickerId : TickerId
  halfSpread : Price
  minSpread : Price
  baseQty : Qty
  maxQty : Qty
  priceUpdateThreshold : Price
  positionSkewFactor : F64
  maxPosition : Int
  deriving DecidableEq, Repr

namespace MarketMakerConfig

/-- `MarketMakerConfig::default`. -/
def default : MarketMakerConfig where
  tickerId := 0
  halfSpread := 50
  minSpread := 20
  baseQty := 100
  maxQty := 500
  priceUpdateThreshold := 10
  positionSkewFactor := F64.lit 5 10
  maxPosition := 1000

/-- `MarketMakerConfig::new`. -/
def new (tickerId : TickerId) : MarketMakerConfig := { default with tickerId }

/-- `with_half_spread`. -/
def withHalfSpread (c : MarketMakerConfig) (halfSpread : Price) : MarketMakerConfig :=
  { c with halfSpread }

/-- `with_min_spread`. -/
def withMinSpread (c : MarketMakerConfig) (minSpread : Price) : MarketMakerConfig :=
  { c with minSpread }

/-- `with_base_qty`. -/
def withBaseQty (c : MarketMakerConfig) (baseQty : Qty) : MarketMakerConfig :=
  { c with baseQty }

/-- `with_max_qty`: any quantity, 0 included. -/
def withMaxQty (c : MarketMakerConfig) (maxQty : Qty) : MarketMakerConfig :=
  { c with maxQty }

/-- `with_price_threshold`. -/
def withPriceThreshold (c : MarketMakerConfig) (threshold : Price) : MarketMakerConfig :=
  { c with priceUpdateThreshold := threshold }

/-- `with_position_skew`: clamped to `[0.0, 1.0]`. -/
def withPositionSkew (c : MarketMakerConfig) (factor : F64) : MarketMakerConfig :=
  { c with positionSkewFactor := factor.clamp F64.zero F64.one }

/-- `with_max_position`. -/
def withMaxPosition (c : MarketMakerConfig) (maxPosition : Int) : MarketMakerConfig :=
  { c with maxPosition }

end MarketMakerConfig

/-! ## The strategy -/

/-- `MarketMaker`: the last quoted prices (0 before the first quote), the position set from
outside, and whether it is active. -/
structure MarketMaker where
  config : MarketMakerConfig
  lastBidPrice : Price
  lastAskPrice : Price
  currentPosition : Int
  active : Bool
  deriving DecidableEq, Repr

namespace MarketMaker

/-- `MarketMaker::new`. -/
def new (config : MarketMakerConfig) : MarketMaker := ⟨config, 0, 0, 0, true⟩

/-- `MarketMaker::for_ticker`. -/
def forTicker (tickerId : TickerId) : MarketMaker := new (MarketMakerConfig.new tickerId)

/-- `set_position`. -/
def setPosition (mm : MarketMaker) (position : Int) : MarketMaker :=
  { mm with currentPosition := position }

/-- `activate`. -/
def activate (mm : MarketMaker) : MarketMaker := { mm with active := true }

/-- `deactivate`. -/
def deactivate (mm : MarketMaker) : MarketMaker := { mm with active := false }

/-- `calculate_quotes`: the half spread widened by half the imbalance's magnitude and kept at
least `min_spread`, both prices moved against the imbalance by a fifth of it, and the bid kept
below the ask. Each `i64` operation wraps; wrapping the result once is the same. -/
def calculateQuotes (mm : MarketMaker) (features : TickerFeatures) : Price × Price :=
  let fairValue := features.fairValue
  let imbalanceAdjustment :=
    ((features.imbalance.abs.mul (F64.ofInt mm.config.halfSpread)).mul (F64.lit 5 10)).toI64
  let adjustedHalfSpread :=
    max (i64Wrap (mm.config.halfSpread + imbalanceAdjustment)) mm.config.minSpread
  let imbalanceSkew :=
    ((features.imbalance.mul (F64.ofInt adjustedHalfSpread)).mul (F64.lit 2 10)).toI64
  let bidPrice := i64Wrap (fairValue - adjustedHalfSpread - imbalanceSkew)
  let askPrice := i64Wrap (fairValue + adjustedHalfSpread - imbalanceSkew)
  (min bidPrice (i64Wrap (askPrice - 1)), askPrice)

/-- `calculate_quantities`: `base_qty` scaled down on the side that adds to the position by
`position_skew_factor` times the position's share of `max_position`, clamped to
`[1, max_qty]`, and 0 on a side whose limit is reached. `none` where a clamp panics. -/
def calculateQuantities (mm : MarketMaker) : Option (Qty × Qty) :=
  let c := mm.config
  let base := F64.ofNat c.baseQty
  let max := c.maxQty
  let maxPos := F64.ofInt c.maxPosition
  let skew := c.positionSkewFactor
  let positionRatio :=
    if F64.lt F64.zero maxPos then
      ((F64.ofInt mm.currentPosition).div maxPos).clamp F64.one.neg F64.one
    else F64.zero
  let bidFactor := F64.one.sub ((skew.mul positionRatio).max F64.zero)
  let askFactor := F64.one.add ((skew.mul positionRatio).min F64.zero)
  (ordClamp (base.mul bidFactor).toU32 1 max).bind fun bidQty =>
  (ordClamp (base.mul askFactor).toU32 1 max).map fun askQty =>
  let bidQty := if mm.currentPosition ≥ c.maxPosition then 0 else bidQty
  let askQty := if mm.currentPosition ≤ i64Wrap (-c.maxPosition) then 0 else askQty
  (bidQty, askQty)

/-- `should_update_quotes`: always before the first quote, then when either price moved by at
least `price_update_threshold`. -/
def shouldUpdateQuotes (mm : MarketMaker) (newBid newAsk : Price) : Bool :=
  if mm.lastBidPrice = 0 ∨ mm.lastAskPrice = 0 then true
  else
    let bidMoved := i64Abs (i64Wrap (newBid - mm.lastBidPrice)) ≥ mm.config.priceUpdateThreshold
    let askMoved := i64Abs (i64Wrap (newAsk - mm.lastAskPrice)) ≥ mm.config.priceUpdateThreshold
    bidMoved || askMoved

/-- `build_quote_pair`: a side with quantity 0 is not quoted. -/
def buildQuotePair (mm : MarketMaker) (bidPrice : Price) (bidQty : Qty) (askPrice : Price)
    (askQty : Qty) : QuotePair :=
  let tickerId := mm.config.tickerId
  ⟨if bidQty > 0 then some ⟨tickerId, .buy, bidPrice, bidQty⟩ else none,
    if askQty > 0 then some ⟨tickerId, .sell, askPrice, askQty⟩ else none⟩

/-- `on_features`: inactive or invalid features return `None`; otherwise the new quotes, sent
with their quantities when they moved enough, and remembered as the last quoted prices. -/
def onFeatures (mm : MarketMaker) (features : TickerFeatures) :
    Option (MarketMaker × StrategyAction) :=
  if !mm.active || !features.isValid then some (mm, .none)
  else
    let (bidPrice, askPrice) := mm.calculateQuotes features
    if mm.shouldUpdateQuotes bidPrice askPrice then
      mm.calculateQuantities.map fun (bidQty, askQty) =>
        ({ mm with lastBidPrice := bidPrice, lastAskPrice := askPrice },
          .quote (mm.buildQuotePair bidPrice bidQty askPrice askQty))
    else some (mm, .none)

/-- `reset`. -/
def reset (mm : MarketMaker) : MarketMaker := { mm with lastBidPrice := 0, lastAskPrice := 0 }

/-! ## Panics -/

variable {mm : MarketMaker} {f : TickerFeatures}

/-- `calculate_quantities` panics exactly when `max_qty = 0`. -/
theorem calculateQuantities_eq_none_iff :
    mm.calculateQuantities = none ↔ mm.config.maxQty = 0 := by
  by_cases hq : mm.config.maxQty = 0
  · simp [calculateQuantities, hq]
  · simp [calculateQuantities, ordClamp, hq, Nat.one_le_iff_ne_zero.mpr hq]

/-- `on_features` panics exactly when it quotes, active and on valid features with quotes that
moved enough, while `max_qty = 0`. -/
theorem onFeatures_eq_none_iff :
    mm.onFeatures f = none ↔
      mm.active ∧ f.isValid ∧
        mm.shouldUpdateQuotes (mm.calculateQuotes f).1 (mm.calculateQuotes f).2 ∧
        mm.config.maxQty = 0 := by
  rcases hq : mm.calculateQuotes f with ⟨bid, ask⟩
  unfold onFeatures
  rw [hq]
  cases mm.active <;> cases f.isValid <;>
    simp only [Bool.not_true, Bool.not_false, Bool.or_true, Bool.or_false, if_true, if_false,
      reduceCtorEq, false_and, true_and]
  split_ifs with hs <;>
    simp only [hs, Option.map_eq_none', calculateQuantities_eq_none_iff, reduceCtorEq, true_and,
      false_and]

/-! ## Quote sizes -/

variable {mm' : MarketMaker} {pair : QuotePair}

/-- Both quantities are at most `max_qty`: clamped into `[1, max_qty]`, or 0 at a limit. -/
theorem calculateQuantities_le {bq aq : Qty} (h : mm.calculateQuantities = some (bq, aq)) :
    bq ≤ mm.config.maxQty ∧ aq ≤ mm.config.maxQty := by
  simp only [calculateQuantities, Option.bind_eq_some, Option.map_eq_some', Prod.mk.injEq] at h
  obtain ⟨b, hb, a, ha, rfl, rfl⟩ := h
  have := (ordClamp_bounds hb).2
  have := (ordClamp_bounds ha).2
  dsimp only [Qty] at *
  constructor <;> split_ifs <;> omega

/-- A quote that `on_features` sends holds the quantities of `calculate_quantities`. -/
theorem onFeatures_quote (h : mm.onFeatures f = some (mm', .quote pair)) :
    ∃ bq aq, mm.calculateQuantities = some (bq, aq) ∧
      pair = mm.buildQuotePair (mm.calculateQuotes f).1 bq (mm.calculateQuotes f).2 aq := by
  rcases hq : mm.calculateQuotes f with ⟨bid, ask⟩
  unfold onFeatures at h
  rw [hq] at h
  dsimp only at h
  split_ifs at h
  · cases h
  · obtain ⟨⟨bq, aq⟩, hc, he⟩ := Option.map_eq_some'.mp h
    cases he
    exact ⟨bq, aq, hc, rfl⟩
  · cases h

/-- An order of a quote pair has the positive quantity of its side. -/
theorem mem_buildQuotePair {bp ap : Price} {bq aq : Qty} {o : OrderRequest}
    (h : (mm.buildQuotePair bp bq ap aq).bid = some o ∨
      (mm.buildQuotePair bp bq ap aq).ask = some o) :
    0 < o.qty ∧ (o.qty = bq ∨ o.qty = aq) := by
  simp only [buildQuotePair] at h
  rcases h with h | h <;> split_ifs at h with hq <;> cases h
  exacts [⟨hq, .inl rfl⟩, ⟨hq, .inr rfl⟩]

/-- **The size of a quote.** Every order of a quote that `on_features` sends has a quantity in
`[1, max_qty]`. -/
theorem quote_qty_bounds {o : OrderRequest} (h : mm.onFeatures f = some (mm', .quote pair))
    (ho : pair.bid = some o ∨ pair.ask = some o) :
    1 ≤ o.qty ∧ o.qty ≤ mm.config.maxQty := by
  obtain ⟨bq, aq, hc, rfl⟩ := onFeatures_quote h
  obtain ⟨hpos, hq⟩ := mem_buildQuotePair ho
  have hle := calculateQuantities_le hc
  exact ⟨hpos, hq.elim (·.trans_le hle.1) (·.trans_le hle.2)⟩

theorem first_quote_within_max_qty :
    ∃ mm' pair, (forTicker 1).onFeatures LiquidityTaker.buySignal = some (mm', .quote pair) ∧
      pair = ⟨some ⟨1, .buy, 50, 100⟩, some ⟨1, .sell, 150, 100⟩⟩ ∧
      ∀ o, pair.bid = some o ∨ pair.ask = some o → 1 ≤ o.qty ∧ o.qty ≤ 500 := by
  obtain ⟨mm', h⟩ : ∃ mm', (forTicker 1).onFeatures LiquidityTaker.buySignal =
      some (mm', .quote ⟨some ⟨1, .buy, 50, 100⟩, some ⟨1, .sell, 150, 100⟩⟩) :=
    ⟨_, rfl⟩
  exact ⟨mm', _, h, rfl, fun o ho => quote_qty_bounds h ho⟩

/-- `on_features` keeps the market maker's configuration and position, and quotes only for its
ticker. -/
theorem onFeatures_ordersFor {act : StrategyAction} (h : mm.onFeatures f = some (mm', act)) :
    mm'.config = mm.config ∧ mm'.currentPosition = mm.currentPosition ∧
      act.OrdersFor mm.config.tickerId := by
  rcases hq : mm.calculateQuotes f with ⟨bid, ask⟩
  unfold onFeatures at h
  rw [hq] at h
  dsimp only at h
  split_ifs at h
  · cases h; exact ⟨rfl, rfl, trivial⟩
  · obtain ⟨⟨bq, aq⟩, -, he⟩ := Option.map_eq_some'.mp h
    cases he
    refine ⟨rfl, rfl, fun o ho => ⟨?_, (mem_buildQuotePair ho).1⟩⟩
    simp only [buildQuotePair] at ho
    rcases ho with ho | ho <;> split_ifs at ho <;> cases ho <;> rfl
  · cases h; exact ⟨rfl, rfl, trivial⟩

end MarketMaker

/-! ## When the strategies panic -/

/-- **`max_qty = 0` panics.** A fresh market maker with `max_qty = 0` panics on its first valid
features, whatever they are, and a fresh liquidity taker with `max_qty = 0` that scales with
the signal panics on its first buy signal past the threshold, at every timestamp and best
price: both reach `clamp(1, 0)`. -/
theorem zero_max_qty_panics {cm : MarketMakerConfig} {cl : LiquidityTakerConfig}
    {f g : TickerFeatures} (hm : cm.maxQty = 0) (hf : f.isValid) (hl : cl.maxQty = 0)
    (hs : cl.scaleWithSignal) (hg : g.isValid) (hb : F64.lt cl.buyThreshold g.tradeSignal)
    (t : Nat) (bestBid bestAsk : Price) :
    (MarketMaker.new cm).onFeatures f = none ∧
      (LiquidityTaker.new cl).onFeatures g t bestBid bestAsk = none :=
  ⟨MarketMaker.onFeatures_eq_none_iff.mpr
      ⟨rfl, hf, by simp [MarketMaker.shouldUpdateQuotes, MarketMaker.new], hm⟩,
    LiquidityTaker.new_onFeatures_eq_none hs hl hg hb⟩

theorem with_max_qty_zero_panics :
    (MarketMaker.new ((MarketMakerConfig.new 1).withMaxQty 0)).onFeatures
        LiquidityTaker.buySignal = none ∧
      (LiquidityTaker.new ((LiquidityTakerConfig.new 1).withMaxQty 0)).onFeatures
        LiquidityTaker.buySignal 0 99 101 = none :=
  @zero_max_qty_panics _ _ LiquidityTaker.buySignal LiquidityTaker.buySignal rfl rfl rfl rfl rfl
    (by decide) 0 99 101

/-- **Neither strategy panics** when `max_qty ≥ 1`, nor the liquidity taker when it does not
scale with the signal: from every state, on all features, timestamps and best prices. -/
theorem strategies_never_panic {mm : MarketMaker} {lt : LiquidityTaker}
    (hm : 1 ≤ mm.config.maxQty) (hl : lt.config.scaleWithSignal = true → 1 ≤ lt.config.maxQty)
    (f g : TickerFeatures) (t : Nat) (bestBid bestAsk : Price) :
    mm.onFeatures f ≠ none ∧ lt.onFeatures g t bestBid bestAsk ≠ none :=
  ⟨fun h => Nat.one_le_iff_ne_zero.mp hm (MarketMaker.onFeatures_eq_none_iff.mp h).2.2.2,
    LiquidityTaker.onFeatures_ne_none hl⟩

theorem default_strategies_never_panic :
    (MarketMaker.forTicker 1).onFeatures LiquidityTaker.buySignal ≠ none ∧
      (LiquidityTaker.forTicker 1).onFeatures LiquidityTaker.buySignal 0 99 101 ≠ none :=
  strategies_never_panic (by decide) (fun _ => by decide) _ _ _ _ _

end LowLatencyTrading
