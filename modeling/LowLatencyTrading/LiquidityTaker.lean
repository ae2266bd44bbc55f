import LowLatencyTrading.F64
import LowLatencyTrading.TradeEngine

/-!
# The liquidity taker (`trading/src/strategies/liquidity_taker.rs`)

A strategy that sends one aggressive order when the trade signal crosses a threshold, at most
one per `effective_interval_ns`. That interval starts at `min_order_interval_ns`, is multiplied
by `cooldown_factor` after each order (capped at ten times the minimum) and halved by a fill.

* **The model** — `LiquidityTakerConfig` and its builders, `TickerFeatures`, and every method of
  `LiquidityTaker`, with `f64` as the `F64` of `F64.lean`. Unsigned additions wrap, as in a
  release build, and a panic is `none`.
* **Runs** — `step` runs one of the calls `on_features`, `on_features_simple`, `on_fill`,
  `set_position` and `reset_cooldown`, and `run` collects the times at which `Take` is returned.
* **The rate limit** — `run_takes_spaced`: with `cooldown_factor >= 1.0`, ten minimum intervals
  within `2^53`, and every timestamp positive and ten intervals short of `2^64`, consecutive
  `Take`s are at least `min_order_interval_ns` apart and the interval stays in
  `[min, 10 · min]`. Each of the three side conditions is needed: `can_send_order` reads a last
  order time of 0 as "never sent", `last_order_time_ns + effective_interval_ns` wraps, and
  `min_order_interval_ns * 10` wraps (`take_twice_within_interval`).
* **Panics and sizes** — `calculate_quantity` panics exactly when it scales with the signal at
  `max_qty = 0` (`calculateQuantity_eq_none_iff`), and otherwise `on_features` never does
  (`onFeatures_ne_none`). A take's quantity is in `[1, max_qty]` with signal scaling and is
  `base_qty` without, even above `max_qty` (`take_qty_bounds`).
-/

namespace LowLatencyTrading

/-! ## Configuration -/

/-- `LiquidityTakerConfig`. -/
structure LiquidityTakerConfig where
  tickerId : TickerId
  buyThreshold : F64
  sellThreshold : F64
  baseQty : Qty
  maxQty : Qty
  scaleWithSignal : Bool
  aggressionBps : Nat
  minOrderIntervalNs : Nat
  maxPosition : Int
  cooldownFactor : F64
  deriving DecidableEq, Repr

namespace LiquidityTakerConfig

/-- `LiquidityTakerConfig::default`. -/
def default : LiquidityTakerConfig where
  tickerId := 0
  buyThreshold := F64.lit 3 10
  sellThreshold := (F64.lit 3 10).neg
  baseQty := 100
  maxQty := 500
  scaleWithSignal := true
  aggressionBps := 10
  minOrderIntervalNs := 100000000
  maxPosition := 5000
  cooldownFactor := F64.lit 2 1

/-- `LiquidityTakerConfig::new`. -/
def new (tickerId : TickerId) : LiquidityTakerConfig := { default with tickerId }

/-- `with_buy_threshold`: clamped to `[0.0, 1.0]`. -/
def withBuyThreshold (c : LiquidityTakerConfig) (threshold : F64) : LiquidityTakerConfig :=
  { c with buyThreshold := threshold.clamp F64.zero F64.one }

/-- `with_sell_threshold`: clamped to `[-1.0, 0.0]`. -/
def withSellThreshold (c : LiquidityTakerConfig) (threshold : F64) : LiquidityTakerConfig :=
  { c with sellThreshold := threshold.clamp F64.one.neg F64.zero }

/-- `with_threshold`: both thresholds from one magnitude clamped to `[0.0, 1.0]`. -/
def withThreshold (c : LiquidityTakerConfig) (threshold : F64) : LiquidityTakerConfig :=
  let absThreshold := threshold.abs.clamp F64.zero F64.one
  { c with buyThreshold := absThreshold, sellThreshold := absThreshold.neg }

/-- `with_base_qty`. -/
def withBaseQty (c : LiquidityTakerConfig) (baseQty : Qty) : LiquidityTakerConfig :=
  { c with baseQty }

/-- `with_max_qty`. -/
def withMaxQty (c : LiquidityTakerConfig) (maxQty : Qty) : LiquidityTakerConfig :=
  { c with maxQty }

/-- `with_signal_scaling`. -/
def withSignalScaling (c : LiquidityTakerConfig) (enabled : Bool) : LiquidityTakerConfig :=
  { c with scaleWithSignal := enabled }

/-- `with_aggression_bps`. -/
def withAggressionBps (c : LiquidityTakerConfig) (bps : Nat) : LiquidityTakerConfig :=
  { c with aggressionBps := bps }

/-- `with_min_interval_ns`. -/
def withMinIntervalNs (c : LiquidityTakerConfig) (intervalNs : Nat) : LiquidityTakerConfig :=
  { c with minOrderIntervalNs := intervalNs }

/-- `with_max_position`. -/
def withMaxPosition (c : LiquidityTakerConfig) (maxPosition : Int) : LiquidityTakerConfig :=
  { c with maxPosition }

/-- `with_cooldown_factor`: `factor.max(1.0)`. -/
def withCooldownFactor (c : LiquidityTakerConfig) (factor : F64) : LiquidityTakerConfig :=
  { c with cooldownFactor := factor.max F64.one }

end LiquidityTakerConfig

/-- `TickerFeatures` (`trading/src/features.rs`). -/
structure TickerFeatures where
  tickerId : TickerId
  fairValue : Price
  spread : Price
  midPrice : Price
  imbalance : F64
  tradeSignal : F64
  deriving DecidableEq, Repr

/-- `TickerFeatures::is_valid`. -/
def TickerFeatures.isValid (f : TickerFeatures) : Bool := f.midPrice > 0 ∧ f.fairValue > 0

/-! ## The strategy -/

/-- `LiquidityTaker`. -/
structure LiquidityTaker where
  config : LiquidityTakerConfig
  lastOrderTimeNs : Nat
  effectiveIntervalNs : Nat
  currentPosition : Int
  active : Bool
  ordersSent : Nat
  deriving DecidableEq, Repr

namespace LiquidityTaker

/-- `LiquidityTaker::new`. -/
def new (config : LiquidityTakerConfig) : LiquidityTaker :=
  ⟨config, 0, config.minOrderIntervalNs, 0, true, 0⟩

/-- `LiquidityTaker::for_ticker`. -/
def forTicker (tickerId : TickerId) : LiquidityTaker := new (LiquidityTakerConfig.new tickerId)

/-- `set_position`. -/
def setPosition (lt : LiquidityTaker) (position : Int) : LiquidityTaker :=
  { lt with currentPosition := position }

/-- `activate`. -/
def activate (lt : LiquidityTaker) : LiquidityTaker := { lt with active := true }

/-- `deactivate`. -/
def deactivate (lt : LiquidityTaker) : LiquidityTaker := { lt with active := false }

/-- `can_send_order`: a last order time of 0 means none was sent; the sum wraps. -/
def canSendOrder (lt : LiquidityTaker) (currentTimeNs : Nat) : Bool :=
  lt.lastOrderTimeNs = 0 ∨ currentTimeNs ≥ (lt.lastOrderTimeNs + lt.effectiveIntervalNs) % 2 ^ 64

/-- `record_order`: the interval times `cooldown_factor` in `f64`, cast back to `u64`, capped at
`min_order_interval_ns * 10`, which wraps. -/
def recordOrder (lt : LiquidityTaker) (currentTimeNs : Nat) : LiquidityTaker :=
  { lt with
    lastOrderTimeNs := currentTimeNs
    ordersSent := lt.ordersSent + 1
    effectiveIntervalNs :=
      min ((F64.ofNat lt.effectiveIntervalNs).mul lt.config.cooldownFactor).toU64
        (lt.config.minOrderIntervalNs * 10 % 2 ^ 64) }

/-- `reset_cooldown`. -/
def resetCooldown (lt : LiquidityTaker) : LiquidityTaker :=
  { lt with effectiveIntervalNs := lt.config.minOrderIntervalNs }

/-- `calculate_quantity`: with signal scaling, the base quantity moved toward `max_qty` by how
far the signal passes its threshold; `none` where `clamp(1, max_qty)` panics, at
`max_qty = 0`. -/
def calculateQuantity (lt : LiquidityTaker) (signal : F64) : Option Qty :=
  let c := lt.config
  if c.scaleWithSignal then
    let signalAbs := signal.abs
    let threshold := if F64.lt F64.zero signal then c.buyThreshold else c.sellThreshold.abs
    let signalExcess := (signalAbs.sub threshold).div (F64.one.sub threshold)
    let signalFactor := signalExcess.clamp F64.zero F64.one
    let base := F64.ofNat c.baseQty
    let max := F64.ofNat c.maxQty
    let qty := base.add ((max.sub base).mul signalFactor)
    if 1 ≤ c.maxQty then some (Max.max 1 (Min.min qty.toU32 c.maxQty)) else none
  else some c.baseQty

/-- `create_buy_order` and `create_sell_order`: the quantity, `none` inside when it is 0, at the
reference price moved by `aggression_bps` across the spread. -/
def createOrder (lt : LiquidityTaker) (side : Side) (signal : F64) (reference : Price) :
    Option (Option OrderRequest) :=
  (lt.calculateQuantity signal).map fun qty =>
    if qty = 0 then none
    else
      let aggression := (((F64.ofInt reference).mul (F64.ofNat lt.config.aggressionBps)).div
        (F64.lit 10000 1)).toI64
      some ⟨lt.config.tickerId, side, i64Wrap (reference + side.asSign * aggression), qty⟩

/-- `create_buy_order`: crosses up from the best ask. -/
def createBuyOrder (lt : LiquidityTaker) (signal : F64) (bestAsk : Price) :
    Option (Option OrderRequest) :=
  lt.createOrder .buy signal bestAsk

/-- `create_sell_order`: crosses down from the best bid. -/
def createSellOrder (lt : LiquidityTaker) (signal : F64) (bestBid : Price) :
    Option (Option OrderRequest) :=
  lt.createOrder .sell signal bestBid

/-- An order created at `currentTimeNs` is recorded and returned as `Take`; no order, nothing. -/
def takeOrNone (lt : LiquidityTaker) (currentTimeNs : Nat) :
    Option OrderRequest → LiquidityTaker × StrategyAction
  | some order => (lt.recordOrder currentTimeNs, .take order)
  | none => (lt, .none)

/-- The sell half of `on_features`, reached when no buy order was made. -/
def sellOnSignal (lt : LiquidityTaker) (signal : F64) (currentTimeNs : Nat) (bestBid : Price) :
    Option (LiquidityTaker × StrategyAction) :=
  if F64.lt signal lt.config.sellThreshold then
    if lt.config.maxPosition > 0 ∧ lt.currentPosition ≤ -lt.config.maxPosition then
      some (lt, .none)
    else (lt.createSellOrder signal bestBid).map (lt.takeOrNone currentTimeNs)
  else some (lt, .none)

/-- `on_features`: inactive, invalid features or too soon return `None`; then a buy signal
above `buy_threshold` takes from the ask unless the position is at its limit, and otherwise a
sell signal below `sell_threshold` hits the bid. -/
def onFeatures (lt : LiquidityTaker) (features : TickerFeatures) (currentTimeNs : Nat)
    (bestBid bestAsk : Price) : Option (LiquidityTaker × StrategyAction) :=
  if !lt.active || !features.isValid || !lt.canSendOrder currentTimeNs then some (lt, .none)
  else
    let signal := features.tradeSignal
    if F64.lt lt.config.buyThreshold signal then
      if lt.config.maxPosition > 0 ∧ lt.currentPosition ≥ lt.config.maxPosition then
        some (lt, .none)
      else (lt.createBuyOrder signal bestAsk).bind fun
        | some order => some (lt.takeOrNone currentTimeNs (some order))
        | none => lt.sellOnSignal signal currentTimeNs bestBid
    else lt.sellOnSignal signal currentTimeNs bestBid

/-- `on_features_simple`: best bid and ask half a spread either side of the mid price. -/
def onFeaturesSimple (lt : LiquidityTaker) (features : TickerFeatures) (currentTimeNs : Nat) :
    Option (LiquidityTaker × StrategyAction) :=
  let mid := features.midPrice
  let halfSpread := features.spread.tdiv 2
  lt.onFeatures features currentTimeNs (i64Wrap (mid - halfSpread)) (i64Wrap (mid + halfSpread))

/-- `on_fill`: the interval halved, not below `min_order_interval_ns`. -/
def onFill (lt : LiquidityTaker) : LiquidityTaker :=
  { lt with
    effectiveIntervalNs := max (lt.effectiveIntervalNs / 2) lt.config.minOrderIntervalNs }

/-- `reset`. -/
def reset (lt : LiquidityTaker) : LiquidityTaker :=
  { lt with
    lastOrderTimeNs := 0
    effectiveIntervalNs := lt.config.minOrderIntervalNs
    ordersSent := 0 }

/-! ## Runs -/

/-- The calls the rate limit is stated over. -/
inductive Call where
  | onFeatures (features : TickerFeatures) (currentTimeNs : Nat) (bestBid bestAsk : Price)
  | onFeaturesSimple (features : TickerFeatures) (currentTimeNs : Nat)
  | onFill
  | setPosition (position : Int)
  | resetCooldown
  deriving DecidableEq, Repr

/-- A call's `current_time_ns`, for those that have one. -/
def Call.time? : Call → Option Nat
  | .onFeatures _ t _ _ | .onFeaturesSimple _ t => some t
  | _ => none

/-- One call; `none` if it panics. -/
def step (lt : LiquidityTaker) : Call → Option (LiquidityTaker × StrategyAction)
  | .onFeatures f t b a => lt.onFeatures f t b a
  | .onFeaturesSimple f t => lt.onFeaturesSimple f t
  | .onFill => some (lt.onFill, .none)
  | .setPosition p => some (lt.setPosition p, .none)
  | .resetCooldown => some (lt.resetCooldown, .none)

/-- The times of the `Take`s a call returns. -/
def takeTimes (c : Call) : StrategyAction → List Nat
  | .take _ => c.time?.toList
  | _ => []

/-- The calls in order: the final state and the time of every `Take`; `none` on a panic. -/
def run (lt : LiquidityTaker) : List Call → Option (LiquidityTaker × List Nat)
  | [] => some (lt, [])
  | c :: cs => (lt.step c).bind fun (lt', a) =>
    (lt'.run cs).map fun (lt'', ts) => (lt'', takeTimes c a ++ ts)

/-! ## The rate limit -/

section RateLimit

variable {cfg : LiquidityTakerConfig} {lt lt' : LiquidityTaker} {t : Nat}

/-- The interval is `cfg`'s and lies in `[min, 10 · min]`. -/
structure IntervalOk (cfg : LiquidityTakerConfig) (lt : LiquidityTaker) : Prop where
  config : lt.config = cfg
  ge_min : cfg.minOrderIntervalNs ≤ lt.effectiveIntervalNs
  le_ten : lt.effectiveIntervalNs ≤ 10 * cfg.minOrderIntervalNs

theorem IntervalOk.new : IntervalOk cfg (new cfg) := ⟨rfl, le_rfl, by simp only [LiquidityTaker.new]; omega⟩

/-- The cooldown multiplies the interval by at least 1 and caps it at ten minimums, when the
product is exact enough (`10 · min ≤ 2^53`) and the cap does not wrap. -/
theorem IntervalOk.recordOrder (h : IntervalOk cfg lt) (hf : F64.le F64.one cfg.cooldownFactor)
    (hmin : 10 * cfg.minOrderIntervalNs ≤ 2 ^ 53) (t : Nat) : IntervalOk cfg (lt.recordOrder t) := by
  obtain ⟨rfl, h₁, h₂⟩ := h
  have hx := F64.le_toU64_mul_ofNat (n := lt.effectiveIntervalNs) (by omega) hf
  have hcap : lt.config.minOrderIntervalNs * 10 % 2 ^ 64 = 10 * lt.config.minOrderIntervalNs := by
    omega
  exact ⟨rfl, by simp only [recordOrder, hcap]; omega, by simp only [recordOrder, hcap]; omega⟩

theorem IntervalOk.onFill (h : IntervalOk cfg lt) : IntervalOk cfg lt.onFill := by
  obtain ⟨rfl, h₁, h₂⟩ := h
  exact ⟨rfl, by simp only [onFill]; omega, by simp only [onFill]; omega⟩

theorem takeOrNone_cases {o : Option OrderRequest} {act : StrategyAction}
    (h : lt.takeOrNone t o = (lt', act)) :
    lt' = lt ∧ act = .none ∨
      ∃ order, o = some order ∧ act = .take order ∧ lt' = lt.recordOrder t := by
  cases o with
  | none =>
    simp only [takeOrNone, Prod.mk.injEq] at h
    exact .inl ⟨h.1.symm, h.2.symm⟩
  | some o =>
    simp only [takeOrNone, Prod.mk.injEq] at h
    exact .inr ⟨o, rfl, h.2.symm, h.1.symm⟩

theorem sellOnSignal_cases {s : F64} {b : Price} {act : StrategyAction}
    (h : lt.sellOnSignal s t b = some (lt', act)) :
    lt' = lt ∧ act = .none ∨
      ∃ o, act = .take o ∧ lt.createSellOrder s b = some (some o) ∧
        lt' = lt.recordOrder t := by
  simp only [sellOnSignal] at h
  split_ifs at h
  · simp only [Option.some.injEq, Prod.mk.injEq] at h
    exact .inl ⟨h.1.symm, h.2.symm⟩
  · obtain ⟨o, hc, ho⟩ := Option.map_eq_some'.mp h
    rcases takeOrNone_cases ho with h' | ⟨o, rfl, h₁, h₂⟩
    exacts [.inl h', .inr ⟨o, h₁, hc, h₂⟩]
  · simp only [Option.some.injEq, Prod.mk.injEq] at h
    exact .inl ⟨h.1.symm, h.2.symm⟩

/-- What `on_features` can do: nothing, or record an order that `create_buy_order` or
`create_sell_order` made, at a time `can_send_order` allows, and return it. -/
theorem onFeatures_cases {f : TickerFeatures} {b a : Price} {act : StrategyAction}
    (h : lt.onFeatures f t b a = some (lt', act)) :
    lt' = lt ∧ act = .none ∨
      ∃ o, act = .take o ∧ lt.canSendOrder t ∧
        (∃ side r, lt.createOrder side f.tradeSignal r = some (some o)) ∧
        lt' = lt.recordOrder t := by
  simp only [onFeatures] at h
  split_ifs at h with hg hb hp
  · simp only [Option.some.injEq, Prod.mk.injEq] at h
    exact .inl ⟨h.1.symm, h.2.symm⟩
  all_goals
    have hc : lt.canSendOrder t = true := by
      simp only [Bool.or_eq_true, Bool.not_eq_true', not_or, Bool.not_eq_false] at hg
      exact hg.2
  · simp only [Option.some.injEq, Prod.mk.injEq] at h
    exact .inl ⟨h.1.symm, h.2.symm⟩
  · obtain ⟨o, hbuy, ho⟩ := Option.bind_eq_some.mp h
    cases o
    · rcases sellOnSignal_cases ho with h' | ⟨o, h₁, hsell, h₂⟩
      exacts [.inl h', .inr ⟨o, h₁, hc, ⟨.sell, b, hsell⟩, h₂⟩]
    · rcases takeOrNone_cases (Option.some.inj ho) with h' | ⟨o, ⟨⟩, h₁, h₂⟩
      exacts [.inl h', .inr ⟨_, h₁, hc, ⟨.buy, a, hbuy⟩, h₂⟩]
  · rcases sellOnSignal_cases h with h' | ⟨o, h₁, hsell, h₂⟩
    exacts [.inl h', .inr ⟨o, h₁, hc, ⟨.sell, b, hsell⟩, h₂⟩]

/-- Where a run can be: the interval in range, and a last order time that is 0 or a positive
time ten intervals short of `2^64`. -/
def RunOk (cfg : LiquidityTakerConfig) (lt : LiquidityTaker) : Prop :=
  IntervalOk cfg lt ∧ (lt.lastOrderTimeNs = 0 ∨
    0 < lt.lastOrderTimeNs ∧ lt.lastOrderTimeNs + 10 * cfg.minOrderIntervalNs < 2 ^ 64)

/-- A time the calls may carry: positive, and ten intervals short of `2^64`. -/
def TimeOk (cfg : LiquidityTakerConfig) (t : Nat) : Prop :=
  0 < t ∧ t + 10 * cfg.minOrderIntervalNs < 2 ^ 64

/-- An order sent at `t` after one at `last`: `last` is 0, or `t` is a minimum interval on. -/
def Spaced (cfg : LiquidityTakerConfig) (last t : Nat) : Prop :=
  last = 0 ∨ last + cfg.minOrderIntervalNs ≤ t

section
variable (hf : F64.le F64.one cfg.cooldownFactor) (hmin : 10 * cfg.minOrderIntervalNs ≤ 2 ^ 53)
include hf hmin

/-- `on_features` at an allowed time: it leaves the state alone, or it was a minimum interval
after the last order and records one at `t`. -/
theorem RunOk.onFeatures (h : RunOk cfg lt) (ht : TimeOk cfg t) {f : TickerFeatures}
    {b a : Price} {act : StrategyAction} (hs : lt.onFeatures f t b a = some (lt', act)) :
    lt' = lt ∧ act = .none ∨
      ∃ o, act = .take o ∧ Spaced cfg lt.lastOrderTimeNs t ∧ RunOk cfg lt' ∧
        lt'.lastOrderTimeNs = t := by
  rcases onFeatures_cases hs with h' | ⟨o, rfl, hc, -, rfl⟩
  · exact .inl h'
  obtain ⟨hi, hl⟩ := h
  refine .inr ⟨o, rfl, ?_, ⟨hi.recordOrder hf hmin t, .inr ht⟩, rfl⟩
  have := hi.ge_min
  have := hi.le_ten
  simp only [canSendOrder, decide_eq_true_eq] at hc
  unfold Spaced TimeOk at *
  rcases hl with hl | ⟨-, hl⟩
  · exact .inl hl
  · rw [Nat.mod_eq_of_lt (by omega)] at hc
    omega

/-- **One call.** A call that takes at `t` was allowed a minimum interval after the last order,
and `t` becomes the last order time; any other call keeps it. -/
theorem RunOk.step (h : RunOk cfg lt) {c : Call} (hc : ∀ t ∈ c.time?, TimeOk cfg t)
    {act : StrategyAction} (hs : lt.step c = some (lt', act)) :
    RunOk cfg lt' ∧ (takeTimes c act = [] ∧ lt'.lastOrderTimeNs = lt.lastOrderTimeNs ∨
      ∃ t, takeTimes c act = [t] ∧ Spaced cfg lt.lastOrderTimeNs t ∧ TimeOk cfg t ∧
        lt'.lastOrderTimeNs = t) := by
  have features : ∀ {f t b a}, c.time? = some t → lt.onFeatures f t b a = some (lt', act) →
      RunOk cfg lt' ∧ (takeTimes c act = [] ∧ lt'.lastOrderTimeNs = lt.lastOrderTimeNs ∨
        ∃ t, takeTimes c act = [t] ∧ Spaced cfg lt.lastOrderTimeNs t ∧ TimeOk cfg t ∧
          lt'.lastOrderTimeNs = t) := by
    intro f t b a hct hs
    have ht := hc t hct
    rcases h.onFeatures hf hmin ht hs with ⟨rfl, rfl⟩ | ⟨o, rfl, hsp, hok, hl⟩
    · exact ⟨h, .inl ⟨rfl, rfl⟩⟩
    · exact ⟨hok, .inr ⟨t, by simp [takeTimes, hct], hsp, ht, hl⟩⟩
  cases c with
  | onFeatures f t b a => exact features rfl hs
  | onFeaturesSimple f t => exact features rfl hs
  | onFill =>
    simp only [LiquidityTaker.step, Option.some.injEq, Prod.mk.injEq] at hs
    obtain ⟨rfl, rfl⟩ := hs
    exact ⟨⟨h.1.onFill, h.2⟩, .inl ⟨rfl, rfl⟩⟩
  | setPosition p =>
    simp only [LiquidityTaker.step, Option.some.injEq, Prod.mk.injEq] at hs
    obtain ⟨rfl, rfl⟩ := hs
    exact ⟨⟨⟨h.1.1, h.1.2, h.1.3⟩, h.2⟩, .inl ⟨rfl, rfl⟩⟩
  | resetCooldown =>
    simp only [LiquidityTaker.step, Option.some.injEq, Prod.mk.injEq] at hs
    obtain ⟨rfl, rfl⟩ := hs
    obtain ⟨⟨rfl, -, -⟩, hl⟩ := h
    exact ⟨⟨⟨rfl, le_rfl, by simp only [resetCooldown]; omega⟩, hl⟩, .inl ⟨rfl, rfl⟩⟩

/-- **A whole run.** Each `Take` is spaced from the one before (the first from the starting
last order time), every `Take` time is allowed, and the run ends where it can be. -/
theorem RunOk.run (h : RunOk cfg lt) {calls : List Call}
    (hc : ∀ t ∈ calls.filterMap Call.time?, TimeOk cfg t) {takes : List Nat}
    (hr : lt.run calls = some (lt', takes)) :
    RunOk cfg lt' ∧ takes.Chain (Spaced cfg) lt.lastOrderTimeNs ∧ ∀ t ∈ takes, TimeOk cfg t := by
  induction calls generalizing lt takes with
  | nil =>
    simp only [LiquidityTaker.run, Option.some.injEq, Prod.mk.injEq] at hr
    obtain ⟨rfl, rfl⟩ := hr
    exact ⟨h, .nil, by simp⟩
  | cons c cs ih =>
    obtain ⟨⟨l₁, a⟩, hs, hr₁⟩ := Option.bind_eq_some.mp hr
    dsimp only at hr₁
    obtain ⟨⟨l₂, ts⟩, hr₂, he⟩ := Option.map_eq_some'.mp hr₁
    simp only [Prod.mk.injEq] at he
    obtain ⟨rfl, rfl⟩ := he
    have hc' : ∀ t ∈ c.time?, TimeOk cfg t := fun t ht =>
      hc t (List.mem_filterMap.mpr ⟨c, List.mem_cons_self _ _, ht⟩)
    obtain ⟨h₁, hstep⟩ := h.step hf hmin hc' hs
    have hcs : ∀ t ∈ cs.filterMap Call.time?, TimeOk cfg t := fun t ht =>
      let ⟨c', h₁, h₂⟩ := List.mem_filterMap.mp ht
      hc t (List.mem_filterMap.mpr ⟨c', List.mem_cons_of_mem _ h₁, h₂⟩)
    obtain ⟨h₂, hchain, hts⟩ := ih h₁ hcs hr₂
    refine ⟨h₂, ?_, ?_⟩
    · rcases hstep with ⟨he, hl⟩ | ⟨t, he, hsp, -, hl⟩
      · rwa [he, List.nil_append, ← hl]
      · rw [he, List.singleton_append, List.chain_cons]
        exact ⟨hsp, hl ▸ hchain⟩
    · rcases hstep with ⟨he, -⟩ | ⟨t, he, -, ht, -⟩
      · rwa [he, List.nil_append]
      · simp only [he, List.singleton_append, List.mem_cons, forall_eq_or_imp]
        exact ⟨ht, hts⟩

end

/-- **The rate limit.** With `cooldown_factor >= 1.0` and `10 · min_order_interval_ns ≤ 2^53`, in
every run from `LiquidityTaker::new` whose timestamps are positive and ten intervals short of
`2^64`, consecutive `Take`s are at least `min_order_interval_ns` apart, and the interval ends
within `[min, 10 · min]`. The timestamps need not increase. -/
theorem run_takes_spaced (hf : F64.le F64.one cfg.cooldownFactor)
    (hmin : 10 * cfg.minOrderIntervalNs ≤ 2 ^ 53) {calls : List Call}
    (hc : ∀ t ∈ calls.filterMap Call.time?,
      0 < t ∧ t + 10 * cfg.minOrderIntervalNs < 2 ^ 64) {takes : List Nat}
    (hr : (new cfg).run calls = some (lt', takes)) :
    takes.Chain' (fun t₁ t₂ => t₁ + cfg.minOrderIntervalNs ≤ t₂) ∧
      cfg.minOrderIntervalNs ≤ lt'.effectiveIntervalNs ∧
      lt'.effectiveIntervalNs ≤ 10 * cfg.minOrderIntervalNs := by
  obtain ⟨⟨hi, -⟩, hchain, hts⟩ := RunOk.run hf hmin ⟨.new, .inl rfl⟩ hc hr
  refine ⟨?_, hi.ge_min, hi.le_ten⟩
  -- after the first `Take`, the last order time is never the sentinel 0
  have spaced : ∀ (ts : List Nat) a, ts.Chain (Spaced cfg) a → 0 < a →
      (∀ t ∈ ts, TimeOk cfg t) → ts.Chain (fun t₁ t₂ => t₁ + cfg.minOrderIntervalNs ≤ t₂) a := by
    intro ts
    induction ts with
    | nil => exact fun _ _ _ _ => .nil
    | cons b ts ih =>
      intro a h ha hts
      rw [List.chain_cons] at h ⊢
      exact ⟨h.1.resolve_left ha.ne', ih b h.2 (hts b (List.mem_cons_self _ _)).1
        fun t ht => hts t (List.mem_cons_of_mem _ ht)⟩
  cases takes with
  | nil => exact List.chain'_nil
  | cons t ts =>
    exact spaced ts t (List.chain_cons.mp hchain).2 (hts t (List.mem_cons_self _ _)).1
      fun t ht => hts t (List.mem_cons_of_mem _ ht)


/-- Valid features for ticker 1 with a buy signal of `0.5`. -/
def buySignal : TickerFeatures := ⟨1, 100, 2, 100, F64.zero, F64.lit 1 2⟩

/-- A take, a call too soon, a fill, and a take once the halved interval has passed. -/
def cooledRun : List Call :=
  [.onFeaturesSimple buySignal 1000000000, .onFeaturesSimple buySignal 1100000000, .onFill,
    .onFeaturesSimple buySignal 1300000000]

theorem cooled_run_spaced :
    ∃ lt' takes, (forTicker 1).run cooledRun = some (lt', takes) ∧
      takes = [1000000000, 1300000000] ∧
      takes.Chain' (fun t₁ t₂ => t₁ + 100000000 ≤ t₂) ∧
      100000000 ≤ lt'.effectiveIntervalNs ∧ lt'.effectiveIntervalNs ≤ 10 * 100000000 := by
  obtain ⟨lt', hr⟩ : ∃ lt', (forTicker 1).run cooledRun = some (lt', [1000000000, 1300000000]) :=
    ⟨_, rfl⟩
  exact ⟨lt', _, hr, rfl, run_takes_spaced (by decide) (by decide) (by decide) hr⟩

/-- **The rate limit breaks** at each of its three side conditions. Two buy signals at time 0
are both taken, since `can_send_order` then reads the last order time 0 as "never sent"; two
at `u64::MAX` are both taken, since `last_order_time_ns + effective_interval_ns` wraps; and
with `min_order_interval_ns = 2^63` the cap `min_order_interval_ns * 10` wraps to 0, so one
order leaves an interval of 0. -/
theorem take_twice_within_interval :
    ((forTicker 1).run [.onFeatures buySignal 0 99 101, .onFeatures buySignal 0 99 101]).map
        Prod.snd = some [0, 0] ∧
      ((forTicker 1).run [.onFeatures buySignal (2 ^ 64 - 1) 99 101,
        .onFeatures buySignal (2 ^ 64 - 1) 99 101]).map Prod.snd =
        some [2 ^ 64 - 1, 2 ^ 64 - 1] ∧
      ((new ((LiquidityTakerConfig.new 1).withMinIntervalNs (2 ^ 63))).run
        [.onFeatures buySignal 1 99 101]).map (·.1.effectiveIntervalNs) = some 0 := by
  decide

end RateLimit

/-! ## Panics

In a release build the one call of `on_features` that can panic is `Ord::clamp(1, max_qty)` in
`calculate_quantity`, whose `assert!(min <= max)` fails at `max_qty = 0`. -/

section Panics

variable {lt : LiquidityTaker} {f : TickerFeatures} {t : Nat} {b a : Price}

/-- `calculate_quantity` panics exactly when it scales with the signal and `max_qty = 0`. -/
theorem calculateQuantity_eq_none_iff {s : F64} :
    lt.calculateQuantity s = none ↔
      lt.config.scaleWithSignal = true ∧ lt.config.maxQty = 0 := by
  unfold calculateQuantity
  dsimp only
  split_ifs with hs hq
  · simpa [hs] using Nat.one_le_iff_ne_zero.mp hq
  · simpa [hs] using Nat.lt_one_iff.mp (Nat.not_le.mp hq)
  · simp [hs]

theorem createOrder_eq_none_iff {side : Side} {s : F64} {r : Price} :
    lt.createOrder side s r = none ↔
      lt.config.scaleWithSignal = true ∧ lt.config.maxQty = 0 := by
  rw [createOrder, Option.map_eq_none', calculateQuantity_eq_none_iff]

section
variable (h : lt.config.scaleWithSignal = true → 1 ≤ lt.config.maxQty)
include h

theorem createOrder_ne_none {side : Side} {s : F64} {r : Price} :
    lt.createOrder side s r ≠ none := fun he =>
  have ⟨hs, hq⟩ := createOrder_eq_none_iff.mp he
  Nat.one_le_iff_ne_zero.mp (h hs) hq

theorem sellOnSignal_ne_none {s : F64} : lt.sellOnSignal s t b ≠ none := by
  unfold sellOnSignal createSellOrder
  split_ifs
  · exact Option.some_ne_none _
  · rw [Ne, Option.map_eq_none']
    exact createOrder_ne_none h
  · exact Option.some_ne_none _

/-- With `max_qty ≥ 1`, or without signal scaling, `on_features` never panics, from any state
and for all features, timestamps and best prices. -/
theorem onFeatures_ne_none : lt.onFeatures f t b a ≠ none := by
  unfold onFeatures
  dsimp only
  split_ifs
  · exact Option.some_ne_none _
  · exact Option.some_ne_none _
  · obtain ⟨o, ho⟩ := Option.ne_none_iff_exists'.mp
      (createOrder_ne_none h : lt.createOrder .buy f.tradeSignal a ≠ none)
    rw [createBuyOrder, ho, Option.some_bind]
    cases o
    · exact sellOnSignal_ne_none h
    · exact Option.some_ne_none _
  · exact sellOnSignal_ne_none h

end

/-- A fresh taker that scales with the signal and has `max_qty = 0` panics on the first buy
signal past its threshold, whatever the timestamp and best prices. -/
theorem new_onFeatures_eq_none {cfg : LiquidityTakerConfig} (hs : cfg.scaleWithSignal = true)
    (hq : cfg.maxQty = 0) (hv : f.isValid = true) (hb : F64.lt cfg.buyThreshold f.tradeSignal) :
    (new cfg).onFeatures f t b a = none := by
  have hc : (new cfg).createBuyOrder f.tradeSignal a = none :=
    createOrder_eq_none_iff.mpr ⟨hs, hq⟩
  unfold onFeatures
  dsimp only
  rw [if_neg (by simp [new, hv, canSendOrder]),
    if_pos (show (new cfg).config.buyThreshold.lt f.tradeSignal from hb),
    if_neg (by simp only [new]; omega), hc, Option.none_bind]

end Panics

/-! ## Order sizes -/

section OrderSizes

variable {lt lt' : LiquidityTaker} {s : F64}

/-- With signal scaling the quantity is clamped into `[1, max_qty]`; without, it is
`base_qty`. -/
theorem calculateQuantity_spec {q : Qty} (h : lt.calculateQuantity s = some q) :
    (lt.config.scaleWithSignal = true → 1 ≤ q ∧ q ≤ lt.config.maxQty) ∧
      (lt.config.scaleWithSignal = false → q = lt.config.baseQty) := by
  unfold calculateQuantity at h
  dsimp only at h
  by_cases hs : lt.config.scaleWithSignal = true
  · by_cases hq : 1 ≤ lt.config.maxQty
    · simp only [hs, hq, ↓reduceIte, Option.some.injEq] at h
      subst h
      exact ⟨fun _ => ⟨le_max_left _ _, max_le hq (min_le_right _ _)⟩,
        fun h => by simp [hs] at h⟩
    · simp [hs, hq] at h
  · simp only [hs, Bool.false_eq_true, ↓reduceIte, Option.some.injEq] at h
    exact ⟨fun h' => absurd h' hs, fun _ => h.symm⟩

/-- An order `create_buy_order` or `create_sell_order` makes has the positive quantity of
`calculate_quantity`. -/
theorem createOrder_some {side : Side} {r : Price} {o : OrderRequest}
    (h : lt.createOrder side s r = some (some o)) :
    0 < o.qty ∧ lt.calculateQuantity s = some o.qty := by
  obtain ⟨q, hq, ho⟩ := Option.map_eq_some'.mp h
  split_ifs at ho with h0
  cases ho
  exact ⟨Nat.pos_of_ne_zero h0, hq⟩

/-- **The size of a take.** Every order `on_features` takes has a quantity of at least 1, at most
`max_qty` with signal scaling, and exactly `base_qty` without, whatever `max_qty` is. -/
theorem take_qty_bounds {f : TickerFeatures} {t : Nat} {b a : Price} {o : OrderRequest}
    (h : lt.onFeatures f t b a = some (lt', .take o)) :
    1 ≤ o.qty ∧ (lt.config.scaleWithSignal = true → o.qty ≤ lt.config.maxQty) ∧
      (lt.config.scaleWithSignal = false → o.qty = lt.config.baseQty) := by
  rcases onFeatures_cases h with ⟨-, ⟨⟩⟩ | ⟨o', ⟨⟩, -, ⟨side, r, hc⟩, -⟩
  obtain ⟨hpos, hq⟩ := createOrder_some hc
  have hspec := calculateQuantity_spec hq
  exact ⟨hpos, fun hs => (hspec.1 hs).2, hspec.2⟩

/-- A taker for ticker 1 without signal scaling and with `base_qty = 1000`, above the default
`max_qty = 500`. -/
def unscaledTaker : LiquidityTaker :=
  new (((LiquidityTakerConfig.new 1).withSignalScaling false).withBaseQty 1000)

theorem unscaled_take_exceeds_max_qty :
    ∃ lt' o, unscaledTaker.onFeatures buySignal 0 99 101 = some (lt', .take o) ∧
      o.qty = 1000 ∧ unscaledTaker.config.maxQty < o.qty := by
  obtain ⟨lt', h⟩ : ∃ lt', unscaledTaker.onFeatures buySignal 0 99 101 =
      some (lt', .take ⟨1, .buy, 101, 1000⟩) := ⟨_, rfl⟩
  have hq : (⟨1, .buy, 101, 1000⟩ : OrderRequest).qty = 1000 := (take_qty_bounds h).2.2 rfl
  exact ⟨lt', _, h, hq, by rw [hq]; decide⟩

end OrderSizes

end LiquidityTaker

/-! ## What an action sends -/

/-- Every order of an action is for ticker `t`, with a positive quantity. -/
def StrategyAction.OrdersFor (t : TickerId) : StrategyAction → Prop
  | .quote pair => ∀ o, pair.bid = some o ∨ pair.ask = some o → o.tickerId = t ∧ 0 < o.qty
  | .take o => o.tickerId = t ∧ 0 < o.qty
  | .cancelAll _ | .none => True

/-- `on_features` keeps the taker's configuration and position, and takes only for its
ticker. -/
theorem LiquidityTaker.onFeatures_ordersFor {lt lt' : LiquidityTaker} {f : TickerFeatures}
    {t : Nat} {b a : Price} {act : StrategyAction} (h : lt.onFeatures f t b a = some (lt', act)) :
    lt'.config = lt.config ∧ lt'.currentPosition = lt.currentPosition ∧
      act.OrdersFor lt.config.tickerId := by
  rcases onFeatures_cases h with ⟨rfl, rfl⟩ | ⟨o, rfl, -, ⟨side, r, hc⟩, rfl⟩
  · exact ⟨rfl, rfl, trivial⟩
  · refine ⟨rfl, rfl, ?_, (createOrder_some hc).1⟩
    obtain ⟨q, -, ho⟩ := Option.map_eq_some'.mp hc
    split_ifs at ho
    cases ho
    rfl

end LowLatencyTrading
