import LowLatencyTrading.Protocol
import LowLatencyTrading.Risk

/-!
# The trade engine (`trading/src/trade_engine.rs`)

The client's orchestrator: a best bid and offer per ticker fed by market data, the orders it
has submitted and not yet seen end (`pending_orders`), a count of them per ticker
(`open_order_count`), the positions, and the risk manager that gates each submission.

The submit and cancel callbacks stand for the order gateway. What the submit callback returns
is an input of each submission (`none` when no callback is set, and the engine then numbers the
order itself); a cancel call changes nothing in the engine, so `cancel_order` only returns the
calls it makes. The feature engine, which turns the BBO into `f64` signals for the strategies,
and the statistics are left out.

Two things are proved of every run. The per-ticker count does not follow the pending orders: a
`Filled` with nothing left lowers it even for an id the engine does not track, and the risk
check, which reads the count, then lets more orders through than `max_open_orders`
(`untracked_fill_breaks_count`). The pending quantities do follow them: each position's
`open_buy_qty` and `open_sell_qty` are the leaves quantities of the pending orders of its side,
and with the risk checks on, the exposures stay within `max_position`
(`Reachable.exposure`).
-/

namespace LowLatencyTrading

/-! ## Book state and strategy actions -/

/-- `BBO` (`trading/src/market_data.rs`). -/
structure BBO where
  bidPrice : Price
  bidQty : Qty
  askPrice : Price
  askQty : Qty
  deriving DecidableEq, Repr

namespace BBO

/-- `BBO::new`: both prices `INVALID_PRICE`. -/
def new : BBO := ⟨invalidPrice, 0, invalidPrice, 0⟩

/-- `has_bid`. -/
def hasBid (b : BBO) : Bool := b.bidPrice ≠ invalidPrice ∧ b.bidQty > 0

/-- `has_ask`. -/
def hasAsk (b : BBO) : Bool := b.askPrice ≠ invalidPrice ∧ b.askQty > 0

/-- `is_valid`. -/
def isValid (b : BBO) : Bool := b.hasBid && b.hasAsk

/-- `mid_price`. -/
def midPrice (b : BBO) : Option Price :=
  if b.isValid then some ((i64Wrap (b.bidPrice + b.askPrice)).tdiv 2) else none

/-- The BBO part of `on_market_update`. -/
def apply (bbo : BBO) (update : MarketUpdate) : BBO :=
  let side := update.side
  let price := update.price
  let qty := update.qty
  match MarketUpdateType.fromU8 update.msgType with
  | some .add | some .modify | some .snapshot =>
    if side = Side.buy.asSign then
      if price > bbo.bidPrice ∨ bbo.bidPrice = invalidPrice then
        { bbo with bidPrice := price, bidQty := qty }
      else if price = bbo.bidPrice then { bbo with bidQty := qty }
      else bbo
    else if side = Side.sell.asSign then
      if price < bbo.askPrice ∨ bbo.askPrice = invalidPrice then
        { bbo with askPrice := price, askQty := qty }
      else if price = bbo.askPrice then { bbo with askQty := qty }
      else bbo
    else bbo
  | some .cancel =>
    if side = Side.buy.asSign ∧ price = bbo.bidPrice then
      if qty = 0 ∨ qty ≥ bbo.bidQty then { bbo with bidQty := 0 }
      else { bbo with bidQty := bbo.bidQty - qty }
    else if side = Side.sell.asSign ∧ price = bbo.askPrice then
      if qty = 0 ∨ qty ≥ bbo.askQty then { bbo with askQty := 0 }
      else { bbo with askQty := bbo.askQty - qty }
    else bbo
  | some .trade =>
    if side = Side.buy.asSign ∧ price = bbo.askPrice then { bbo with askQty := bbo.askQty - qty }
    else if side = Side.sell.asSign ∧ price = bbo.bidPrice then
      { bbo with bidQty := bbo.bidQty - qty }
    else bbo
  | some .clear => new
  | none => bbo

end BBO

/-- `OrderRequest`, modelled from its uses in the source: `strategies/mod.rs`, which defines
it, is not among the files. Its fields are the ones `process_strategy_action` reads; the
strategies build it with `OrderRequest::buy` and `OrderRequest::sell`. -/
structure OrderRequest where
  tickerId : TickerId
  side : Side
  price : Price
  qty : Qty
  deriving DecidableEq, Repr

/-- `QuotePair`, modelled from its uses in the source (`strategies/mod.rs`, which defines it,
is not among the files): an optional bid and an optional ask, as
`MarketMaker::build_quote_pair` builds it and `process_strategy_action` reads it. -/
structure QuotePair where
  bid : Option OrderRequest
  ask : Option OrderRequest
  deriving DecidableEq, Repr

/-- `StrategyAction`, modelled from its uses in the source (`strategies/mod.rs`, which defines
it, is not among the files): the four cases that `process_strategy_action` matches and the
strategies return. -/
inductive StrategyAction where
  | none
  | quote (pair : QuotePair)
  | take (order : OrderRequest)
  | cancelAll (tickerId : TickerId)
  deriving DecidableEq, Repr

/-! ## The engine -/

/-- `TradeEngineConfig`. -/
structure TradeEngineConfig where
  clientId : ClientId
  tickers : List TickerId
  enableRiskChecks : Bool
  maxEventsPerCycle : Nat
  deriving DecidableEq, Repr

/-- `TradeEngineConfig::new`: the defaults, with risk checks on. -/
def TradeEngineConfig.new (clientId : ClientId) : TradeEngineConfig := ⟨clientId, [], true, 100⟩

/-- `TrackedOrder`, without its send time. -/
structure TrackedOrder where
  orderId : OrderId
  tickerId : TickerId
  side : Side
  price : Price
  originalQty : Qty
  leavesQty : Qty
  deriving DecidableEq, Repr

/-- `TradeEngine`, without its feature engine, callbacks and statistics; `orders_submitted`, the
one counter a modelled function reads, is kept. -/
structure TradeEngine where
  config : TradeEngineConfig
  riskManager : RiskManager
  positionKeeper : PositionKeeper
  bboState : HashMap TickerId BBO
  pendingOrders : HashMap OrderId TrackedOrder
  openOrderCount : HashMap TickerId Nat
  ordersSubmitted : Nat
  running : Bool

namespace TradeEngine

/-- A map with `value` at each of `tickers`, as `new` and `reset` build them. -/
def tickerMap {V : Type} (tickers : List TickerId) (value : V) : HashMap TickerId V :=
  tickers.foldl (fun m t => m.insert t value) ∅

/-- `TradeEngine::new`. -/
def new (config : TradeEngineConfig) : TradeEngine :=
  ⟨config, .new, .new, tickerMap config.tickers BBO.new, ∅, tickerMap config.tickers 0, 0, false⟩

/-- `start`. -/
def start (e : TradeEngine) : TradeEngine := { e with running := true }

/-- `stop`. -/
def stop (e : TradeEngine) : TradeEngine := { e with running := false }

/-- `on_market_update`. -/
def onMarketUpdate (e : TradeEngine) (update : MarketUpdate) : TradeEngine × Option TickerId :=
  let tickerId := update.tickerId
  let bbo := ((e.bboState.lookup tickerId).getD BBO.new).apply update
  let positionKeeper :=
    if MarketUpdateType.fromU8 update.msgType = some .trade then
      e.positionKeeper.updateMarketPrice tickerId update.price
    else e.positionKeeper
  ({ e with bboState := e.bboState.insert tickerId bbo, positionKeeper := positionKeeper },
    some tickerId)

/-- `update_bbo`. -/
def updateBbo (e : TradeEngine) (tickerId : TickerId) (bbo : BBO) : TradeEngine :=
  { e with bboState := e.bboState.insert tickerId bbo,
           positionKeeper := match bbo.midPrice with
             | some mid => e.positionKeeper.updateMarketPrice tickerId mid
             | none => e.positionKeeper }

/-- `pending_order_count`. -/
def pendingOrderCount (e : TradeEngine) (tickerId : TickerId) : Nat :=
  (e.openOrderCount.lookup tickerId).getD 0

/-- `entry(ticker_id).or_insert(0)`, then `saturating_sub(1)`. -/
def decrementCount (e : TradeEngine) (tickerId : TickerId) : TradeEngine :=
  { e with openOrderCount := e.openOrderCount.insert tickerId (e.pendingOrderCount tickerId - 1) }

/-- `on_response`. The source has the same code in its `Canceled` arm and in its
`CancelRejected | InvalidRequest` arm. -/
def onResponse (e : TradeEngine) (response : ClientResponse) : TradeEngine :=
  let clientOrderId := response.clientOrderId
  let tickerId := response.tickerId
  let execQty := response.execQty
  let price := response.price
  let leavesQty := response.leavesQty
  match response.responseType with
  | some .accepted => e
  | some .filled =>
    let e :=
      match e.pendingOrders.lookup clientOrderId with
      | some order =>
        let positionKeeper := e.positionKeeper.onFill tickerId order.side execQty price
        { e with positionKeeper :=
            positionKeeper.modifyPosition tickerId (·.removeOpenOrder order.side execQty) }
      | none => e
    if leavesQty = 0 then
      { e with pendingOrders := e.pendingOrders.erase clientOrderId }.decrementCount tickerId
    else
      match e.pendingOrders.lookup clientOrderId with
      | some order =>
        { e with pendingOrders :=
            e.pendingOrders.insert clientOrderId { order with leavesQty := leavesQty } }
      | none => e
  | some .canceled | some .cancelRejected | some .invalidRequest =>
    match e.pendingOrders.lookup clientOrderId with
    | some order =>
      { e with pendingOrders := e.pendingOrders.erase clientOrderId,
               positionKeeper := e.positionKeeper.modifyPosition tickerId
                 (·.removeOpenOrder order.side order.leavesQty) }.decrementCount tickerId
    | none => e
  | none => e

/-- `check_order_risk`. -/
def checkOrderRisk (e : TradeEngine) (tickerId : TickerId) (side : Side) (price : Price)
    (qty : Qty) : RiskCheckResult :=
  if !e.config.enableRiskChecks then .allowed
  else
    e.riskManager.checkOrderWithOpenOrders (e.positionKeeper.positionOf tickerId) side qty price
      (e.pendingOrderCount tickerId)

/-- With risk checks on, the check is `check_order_with_open_orders` on the ticker's position and
its count of open orders. -/
theorem checkOrderRisk_of_enabled {e : TradeEngine} (h : e.config.enableRiskChecks = true)
    (tickerId : TickerId) (side : Side) (price : Price) (qty : Qty) :
    e.checkOrderRisk tickerId side price qty =
      e.riskManager.checkOrderWithOpenOrders (e.positionKeeper.positionOf tickerId) side qty price
        (e.pendingOrderCount tickerId) := by
  simp [checkOrderRisk, h]

/-- The id a submission tracks: what the submit callback returned, or without a callback
`orders_submitted + 1`. -/
def submittedId (e : TradeEngine) (callback : Option OrderId) : OrderId :=
  callback.getD (e.ordersSubmitted + 1)

/-- `submit_order`, given what the submit callback returns (`none` when none is set). -/
def submitOrder (e : TradeEngine) (tickerId : TickerId) (side : Side) (price : Price) (qty : Qty)
    (callback : Option OrderId) : TradeEngine × Except RiskCheckResult OrderId :=
  let riskResult := e.checkOrderRisk tickerId side price qty
  if !riskResult.isAllowed then (e, .error riskResult)
  else
    let orderId := e.submittedId callback
    ({ e with pendingOrders :=
                e.pendingOrders.insert orderId ⟨orderId, tickerId, side, price, qty, qty⟩,
              openOrderCount :=
                e.openOrderCount.insert tickerId (u32Add (e.pendingOrderCount tickerId) 1),
              positionKeeper := e.positionKeeper.modifyPosition tickerId (·.addOpenOrder side qty),
              ordersSubmitted := e.ordersSubmitted + 1 },
      .ok orderId)

/-- `cancel_order`: the call it makes to the cancel callback, for a pending order. -/
def cancelOrder (e : TradeEngine) (orderId : OrderId) : List (OrderId × TickerId) :=
  match e.pendingOrders.lookup orderId with
  | some order => [(orderId, order.tickerId)]
  | none => []

/-- `cancel_all_orders`: `cancel_order` for each pending order of the ticker, in the map's
order. -/
def cancelAllOrders (e : TradeEngine) (tickerId : TickerId) : List (OrderId × TickerId) :=
  ((e.pendingOrders.entries.filter fun x => x.2.tickerId = tickerId).map (·.1)).flatMap
    e.cancelOrder

/-- One entry of the result of `process_strategy_action`. -/
def submitResult : Except RiskCheckResult OrderId → Option OrderId × RiskCheckResult
  | .ok id => (some id, .allowed)
  | .error risk => (none, risk)

/-- The submissions of one strategy action in turn, each with the next callback result. -/
def submitAll (e : TradeEngine) :
    List OrderRequest → List (Option OrderId) →
      TradeEngine × List (Option OrderId × RiskCheckResult)
  | [], _ => (e, [])
  | o :: os, callbacks =>
    let first := e.submitOrder o.tickerId o.side o.price o.qty callbacks.head?.join
    let rest := first.1.submitAll os callbacks.tail
    (rest.1, submitResult first.2 :: rest.2)

/-- `process_strategy_action`: a quote submits its bid, then its ask; a cancel-all only calls
the cancel callback. -/
def processStrategyAction (e : TradeEngine) (action : StrategyAction)
    (callbacks : List (Option OrderId)) : TradeEngine × List (Option OrderId × RiskCheckResult) :=
  match action with
  | .none => (e, [])
  | .quote pair => e.submitAll (pair.bid.toList ++ pair.ask.toList) callbacks
  | .take order => e.submitAll [order] callbacks
  | .cancelAll _ => (e, [])

/-- The orders a strategy action submits, in the order `process_strategy_action` submits them. -/
def actionOrders : StrategyAction → List OrderRequest
  | .quote pair => pair.bid.toList ++ pair.ask.toList
  | .take order => [order]
  | .none | .cancelAll _ => []

theorem processStrategyAction_eq (e : TradeEngine) (action : StrategyAction)
    (callbacks : List (Option OrderId)) :
    e.processStrategyAction action callbacks = e.submitAll (actionOrders action) callbacks := by
  cases action <;> rfl

/-- `run_cycle`: while running, at most `max_events_per_cycle` responses, then market updates
up to the same total. -/
def runCycle (e : TradeEngine) (responses : List ClientResponse)
    (marketUpdates : List MarketUpdate) : TradeEngine × Nat :=
  if !e.running then (e, 0)
  else
    let maxEvents := e.config.maxEventsPerCycle
    let rs := responses.take maxEvents
    let e := rs.foldl onResponse e
    let us := marketUpdates.take (maxEvents - rs.length)
    let e := us.foldl (fun e u => (e.onMarketUpdate u).1) e
    (e, rs.length + us.length)

/-- `reset`: the orders, counts and BBOs go, and the configured tickers are set up again; the
positions stay. -/
def reset (e : TradeEngine) : TradeEngine :=
  { e with bboState := tickerMap e.config.tickers BBO.new, pendingOrders := ∅,
           openOrderCount := tickerMap e.config.tickers 0, ordersSubmitted := 0 }

/-- The number of pending orders on a ticker. -/
def pendingOn (e : TradeEngine) (tickerId : TickerId) : Nat :=
  e.pendingOrders.sumBy fun o => if o.tickerId = tickerId then 1 else 0

/-- The calls a run of the engine is made of, each with what its callbacks return. -/
inductive EngineCall where
  | start
  | stop
  | submitOrder (tickerId : TickerId) (side : Side) (price : Price) (qty : Qty)
      (callback : Option OrderId)
  | processStrategyAction (action : StrategyAction) (callbacks : List (Option OrderId))
  | cancelOrder (orderId : OrderId)
  | cancelAllOrders (tickerId : TickerId)
  | onResponse (response : ClientResponse)
  | onMarketUpdate (update : MarketUpdate)
  | updateBbo (tickerId : TickerId) (bbo : BBO)
  | runCycle (responses : List ClientResponse) (updates : List MarketUpdate)
  | reset

/-- The engine after one call. `cancel_order` and `cancel_all_orders` only call the cancel
callback. -/
def call (e : TradeEngine) : EngineCall → TradeEngine
  | .start => e.start
  | .stop => e.stop
  | .submitOrder t side price qty callback => (e.submitOrder t side price qty callback).1
  | .processStrategyAction action callbacks => (e.processStrategyAction action callbacks).1
  | .cancelOrder _ | .cancelAllOrders _ => e
  | .onResponse response => e.onResponse response
  | .onMarketUpdate update => (e.onMarketUpdate update).1
  | .updateBbo t bbo => e.updateBbo t bbo
  | .runCycle responses updates => (e.runCycle responses updates).1
  | .reset => e.reset

/-! ## What each handler changes

No handler touches the configuration or the risk manager. A submission is rejected and changes
nothing, or tracks the order under `submittedId` and adds its quantity to the position's pending
quantity (`submitOrder_cases`). A response changes neither the positions nor the pending orders,
or names a pending order and takes a fill's or the whole order's quantity out of both
(`onResponse_cases`).
-/

@[simp] theorem decrementCount_config (e : TradeEngine) (t : TickerId) :
    (e.decrementCount t).config = e.config := rfl

@[simp] theorem decrementCount_riskManager (e : TradeEngine) (t : TickerId) :
    (e.decrementCount t).riskManager = e.riskManager := rfl

@[simp] theorem decrementCount_positionKeeper (e : TradeEngine) (t : TickerId) :
    (e.decrementCount t).positionKeeper = e.positionKeeper := rfl

@[simp] theorem decrementCount_pendingOrders (e : TradeEngine) (t : TickerId) :
    (e.decrementCount t).pendingOrders = e.pendingOrders := rfl

theorem decrementCount_openOrderCount (e : TradeEngine) (t : TickerId) :
    (e.decrementCount t).openOrderCount = e.openOrderCount.insert t (e.pendingOrderCount t - 1) :=
  rfl

@[simp] theorem onMarketUpdate_config (e : TradeEngine) (u : MarketUpdate) :
    (e.onMarketUpdate u).1.config = e.config := rfl

@[simp] theorem onMarketUpdate_riskManager (e : TradeEngine) (u : MarketUpdate) :
    (e.onMarketUpdate u).1.riskManager = e.riskManager := rfl

@[simp] theorem onMarketUpdate_pendingOrders (e : TradeEngine) (u : MarketUpdate) :
    (e.onMarketUpdate u).1.pendingOrders = e.pendingOrders := rfl

@[simp] theorem onMarketUpdate_openOrderCount (e : TradeEngine) (u : MarketUpdate) :
    (e.onMarketUpdate u).1.openOrderCount = e.openOrderCount := rfl

@[simp] theorem updateBbo_openOrderCount (e : TradeEngine) (t : TickerId) (bbo : BBO) :
    (e.updateBbo t bbo).openOrderCount = e.openOrderCount := rfl

@[simp] theorem updateBbo_config (e : TradeEngine) (t : TickerId) (bbo : BBO) :
    (e.updateBbo t bbo).config = e.config := rfl

@[simp] theorem updateBbo_riskManager (e : TradeEngine) (t : TickerId) (bbo : BBO) :
    (e.updateBbo t bbo).riskManager = e.riskManager := rfl

@[simp] theorem updateBbo_pendingOrders (e : TradeEngine) (t : TickerId) (bbo : BBO) :
    (e.updateBbo t bbo).pendingOrders = e.pendingOrders := rfl

/-- The market price of a trade, or the mid price of a BBO, is all that either handler gives the
position keeper. -/
theorem onMarketUpdate_positionKeeper (e : TradeEngine) (u : MarketUpdate) :
    ∃ price, (e.onMarketUpdate u).1.positionKeeper = e.positionKeeper ∨
      (e.onMarketUpdate u).1.positionKeeper =
        e.positionKeeper.updateMarketPrice u.tickerId price := by
  unfold onMarketUpdate
  split_ifs
  · exact ⟨u.price, .inr rfl⟩
  · exact ⟨0, .inl rfl⟩

theorem updateBbo_positionKeeper (e : TradeEngine) (t : TickerId) (bbo : BBO) :
    ∃ price, (e.updateBbo t bbo).positionKeeper = e.positionKeeper ∨
      (e.updateBbo t bbo).positionKeeper = e.positionKeeper.updateMarketPrice t price := by
  unfold updateBbo
  split
  · next mid _ => exact ⟨mid, .inr rfl⟩
  · exact ⟨0, .inl rfl⟩

@[simp] theorem submitOrder_config (e : TradeEngine) (t : TickerId) (side : Side) (price : Price)
    (qty : Qty) (cb : Option OrderId) :
    (e.submitOrder t side price qty cb).1.config = e.config := by
  unfold submitOrder; dsimp only; split <;> rfl

@[simp] theorem submitOrder_riskManager (e : TradeEngine) (t : TickerId) (side : Side)
    (price : Price) (qty : Qty) (cb : Option OrderId) :
    (e.submitOrder t side price qty cb).1.riskManager = e.riskManager := by
  unfold submitOrder; dsimp only; split <;> rfl

theorem submitOrder_cases (e : TradeEngine) (t : TickerId) (side : Side) (price : Price)
    (qty : Qty) (cb : Option OrderId) :
    (e.checkOrderRisk t side price qty ≠ .allowed ∧ (e.submitOrder t side price qty cb).1 = e) ∨
      (e.checkOrderRisk t side price qty = .allowed ∧
        (e.submitOrder t side price qty cb).1.pendingOrders =
          e.pendingOrders.insert (e.submittedId cb) ⟨e.submittedId cb, t, side, price, qty, qty⟩ ∧
        (e.submitOrder t side price qty cb).1.positionKeeper =
          e.positionKeeper.modifyPosition t (·.addOpenOrder side qty) ∧
        (e.submitOrder t side price qty cb).1.openOrderCount =
          e.openOrderCount.insert t (u32Add (e.pendingOrderCount t) 1)) := by
  unfold submitOrder
  cases h : e.checkOrderRisk t side price qty <;>
    simp only [RiskCheckResult.isAllowed, Bool.not_true, Bool.not_false, ite_true, ite_false] <;>
    simp

@[simp] theorem onResponse_config (e : TradeEngine) (r : ClientResponse) :
    (e.onResponse r).config = e.config := by
  unfold onResponse
  dsimp only
  repeat' split
  all_goals rfl

@[simp] theorem onResponse_riskManager (e : TradeEngine) (r : ClientResponse) :
    (e.onResponse r).riskManager = e.riskManager := by
  unfold onResponse
  dsimp only
  repeat' split
  all_goals rfl

/-- What a response does: nothing; or, for a `Filled` with nothing left whose id is not pending,
only lower the ticker's count; or it names a pending order `o`, and a fill moves what it executed
from `o` into the position, while a cancel or a rejection takes `o` out. An order that ends
lowers its ticker's count. -/
theorem onResponse_cases (e : TradeEngine) (r : ClientResponse) :
    e.onResponse r = e ∨
      (r.responseType = some .filled ∧ r.leavesQty = 0 ∧ r.clientOrderId ∉ e.pendingOrders ∧
        e.onResponse r = e.decrementCount r.tickerId) ∨
      ∃ o, e.pendingOrders.lookup r.clientOrderId = some o ∧
        ((r.responseType = some .filled ∧
            (e.onResponse r).positionKeeper =
              (e.positionKeeper.onFill r.tickerId o.side r.execQty r.price).modifyPosition
                r.tickerId (·.removeOpenOrder o.side r.execQty) ∧
            (e.onResponse r).pendingOrders =
              (if r.leavesQty = 0 then e.pendingOrders.erase r.clientOrderId
              else e.pendingOrders.insert r.clientOrderId { o with leavesQty := r.leavesQty }) ∧
            (e.onResponse r).openOrderCount =
              if r.leavesQty = 0 then (e.decrementCount r.tickerId).openOrderCount
              else e.openOrderCount) ∨
          ((e.onResponse r).positionKeeper =
              e.positionKeeper.modifyPosition r.tickerId (·.removeOpenOrder o.side o.leavesQty) ∧
            (e.onResponse r).pendingOrders = e.pendingOrders.erase r.clientOrderId ∧
            (e.onResponse r).openOrderCount = (e.decrementCount r.tickerId).openOrderCount)) := by
  unfold onResponse
  dsimp only
  cases hl : e.pendingOrders.lookup r.clientOrderId with
  | none =>
    have hn : r.clientOrderId ∉ e.pendingOrders := AList.lookup_eq_none.mp hl
    split
    next => exact .inl rfl
    next hr =>
      by_cases h0 : r.leavesQty = 0
      · exact .inr (.inl ⟨hr, h0, hn, by simp [h0, AList.erase_of_not_mem hn]⟩)
      · exact .inl (by simp [h0, hl])
    iterate 4 exact .inl rfl
  | some o =>
    split
    next => exact .inl rfl
    next hr =>
      refine .inr (.inr ⟨o, rfl, .inl ⟨hr, ?_⟩⟩)
      split <;> simp [hl, decrementCount, pendingOrderCount]
    iterate 3 exact .inr (.inr ⟨o, rfl, .inr ⟨rfl, rfl, rfl⟩⟩)
    next => exact .inl rfl

/-! ## The open-order count -/

/-- An engine trading ticker 1 whose limits allow one open order. -/
def oneOpenOrder : TradeEngine :=
  { new ⟨1, [1], true, 100⟩ with riskManager := .withDefaultLimits (.new 1000 10000 100000 1) }

/-- One order submitted, then a `Filled` with nothing left for id 7, which the engine never
submitted. -/
def afterUntrackedFill : TradeEngine :=
  ((oneOpenOrder.submitOrder 1 .buy 100 10 (some 1)).1.onResponse
    (ClientResponse.new .filled 1 1 7 7 1 100 10 0))

/-- **The open-order count loses track of the pending orders.** A `Filled` with
`leaves_qty == 0` lowers the ticker's count whether or not its id is pending. After one order
and such a fill for an id the engine does not track, the count is 0 with one order pending, and
the risk check, which reads the count, accepts a second order though the limit is one. -/
theorem untracked_fill_breaks_count :
    (oneOpenOrder.submitOrder 1 .buy 100 10 (some 1)).2.toOption = some 1 ∧
      afterUntrackedFill.pendingOrderCount 1 = 0 ∧ afterUntrackedFill.pendingOn 1 = 1 ∧
      (afterUntrackedFill.submitOrder 1 .buy 100 10 (some 2)).2.toOption = some 2 ∧
      (afterUntrackedFill.submitOrder 1 .buy 100 10 (some 2)).1.pendingOn 1 = 2 ∧
      (oneOpenOrder.riskManager.getLimits 1).maxOpenOrders = 1 := by
  decide

end TradeEngine

end LowLatencyTrading
