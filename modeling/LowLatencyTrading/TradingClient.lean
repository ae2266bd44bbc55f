import LowLatencyTrading.MarketDataReceiver
import LowLatencyTrading.FeatureEngine
import LowLatencyTrading.MarketMaker
import LowLatencyTrading.OrderGateway

/-!
# The trading client (`trading/src/main.rs`)

`main` wires the client together and loops: it drains the multicast feed into the
`MarketDataReceiver`; after any update it feeds the ticker's BBO to the `FeatureEngine` and its
mid price to the `PositionKeeper`; it drains the gateway's responses, booking fills into the
position and the strategy, and accepted and cancelled orders into the open quantities; and with
valid features and the position within its limits it runs the strategy and sends each order
that `check_order` allows. It does not use `TradeEngine`.

Each iteration is a function of what the two sockets return and of the clock (`Tick`); the
counters and statistics it only prints are left out.

Over every run of the loop (`run`), from the arguments `main` starts with:

* every order sent is a `New` of the client's id for its ticker, of at least one and at most
  `max_order_qty`, numbered 1, 2, 3, … in the order sent (`run_sends_permitted`);
* the strategy's position is the position keeper's, and every features record has imbalance
  and trade signal in `[-1.0, 1.0]` (`run_keeps_inv`, with the fields of `Inv`).

Unlike `TradeEngine::on_response`, the loop books a fill into the position and never takes it
out of the open quantities, so an order accepted and then filled counts twice against
`max_position` (`fill_counts_twice`).
-/

namespace LowLatencyTrading

/-- `Strategy`, the `--strategy` argument. -/
inductive Strategy where
  | marketMaker
  | liquidityTaker
  deriving DecidableEq, Repr

/-- `Args`, without the addresses of the exchange and of the multicast group. -/
structure Args where
  ticker : TickerId
  clientId : ClientId
  maxOrderQty : Qty
  maxPosition : Int
  maxLoss : Int
  halfSpread : Price
  signalThreshold : F64
  strategy : Strategy

/-- The default values of `Args`. -/
def Args.default : Args := ⟨1, 1, 100, 1000, 100000, 50, F64.lit 3 10, .marketMaker⟩

/-- The state of `main`'s event loop. -/
structure TradingClient where
  ticker : TickerId
  marketDataReceiver : MarketDataReceiver
  orderGateway : OrderGateway
  featureEngine : FeatureEngine
  positionKeeper : PositionKeeper
  riskManager : RiskManager
  marketMaker : Option MarketMaker
  liquidityTaker : Option LiquidityTaker

/-- `poll` keeps the gateway's client id and next order id. -/
theorem OrderGateway.poll_ids (g : OrderGateway) (recv : RecvResult) :
    (g.poll recv).1.clientId = g.clientId ∧ (g.poll recv).1.nextOrderId = g.nextOrderId := by
  have hu : ∀ (g : OrderGateway) (r : ClientResponse),
      (g.updatePending r).clientId = g.clientId ∧
        (g.updatePending r).nextOrderId = g.nextOrderId :=
    fun g r => by unfold OrderGateway.updatePending; split <;> (try split) <;> exact ⟨rfl, rfl⟩
  unfold OrderGateway.poll
  split <;> dsimp only
  all_goals first
    | exact ⟨rfl, rfl⟩
    | split_ifs
      · split
        · exact hu _ _
        · exact ⟨rfl, rfl⟩
      · exact ⟨rfl, rfl⟩

theorem RiskCheckResult.isAllowed_iff {r : RiskCheckResult} :
    r.isAllowed = true ↔ r = .allowed := by
  cases r <;> simp [RiskCheckResult.isAllowed]

namespace TradingClient

/-- What `main` builds before its loop, once both sockets are open. -/
def start (args : Args) : TradingClient where
  ticker := args.ticker
  marketDataReceiver := MarketDataReceiver.new.reserveTickers [args.ticker]
  orderGateway := OrderGateway.connect args.clientId
  featureEngine := FeatureEngine.new.reserveTickers [args.ticker]
  positionKeeper := PositionKeeper.new
  riskManager := RiskManager.new.setLimits args.ticker
    (RiskLimits.new args.maxOrderQty args.maxPosition args.maxLoss 100)
  marketMaker := match args.strategy with
    | .marketMaker => some (MarketMaker.new ((((MarketMakerConfig.new args.ticker).withHalfSpread
        args.halfSpread).withBaseQty args.maxOrderQty).withMaxPosition args.maxPosition))
    | .liquidityTaker => none
  liquidityTaker := match args.strategy with
    | .marketMaker => none
    | .liquidityTaker => some (LiquidityTaker.new ((((LiquidityTakerConfig.new
        args.ticker).withThreshold args.signalThreshold).withBaseQty
        args.maxOrderQty).withMaxPosition args.maxPosition))

/-- Steps 1 and 2 of the loop: `poll_and_process`, then, after any update, the ticker's BBO into
the feature engine and, when it is valid, its mid price into the position keeper. -/
def onMarketData (c : TradingClient) (datagrams : List MulticastRecv) : TradingClient :=
  let (marketDataReceiver, _, _, updatesProcessed) := c.marketDataReceiver.pollAndProcess datagrams
  let c := { c with marketDataReceiver := marketDataReceiver }
  if updatesProcessed > 0 then
    match marketDataReceiver.getBbo c.ticker with
    | some bbo =>
      { c with
        featureEngine := c.featureEngine.onBboUpdate c.ticker bbo
        positionKeeper := match bbo.midPrice with
          | some mid => c.positionKeeper.updateMarketPrice c.ticker mid
          | none => c.positionKeeper }
    | none => c
  else c

/-- The side `main` reads off a response: `Buy` for `side == 1`, `Sell` otherwise. -/
def responseSide (response : ClientResponse) : Side := if response.side = 1 then .buy else .sell

/-- The body of step 3: a fill into the position and the strategy, an accepted order into the
open quantity of its side, and a cancelled one, or a rejected cancel, out of it. -/
def onResponse (c : TradingClient) (response : ClientResponse) : TradingClient :=
  let side := responseSide response
  match response.responseType with
  | some .filled =>
    let positionKeeper := c.positionKeeper.onFill c.ticker side response.execQty response.price
    let pos := ((positionKeeper.getPosition c.ticker).map (·.position)).getD 0
    { c with
      positionKeeper := positionKeeper
      marketMaker := c.marketMaker.map (·.setPosition pos)
      liquidityTaker := c.liquidityTaker.map fun lt => (lt.setPosition pos).onFill }
  | some .accepted =>
    { c with positionKeeper :=
        c.positionKeeper.modifyPosition c.ticker (·.addOpenOrder side response.leavesQty) }
  | some .canceled | some .cancelRejected =>
    { c with positionKeeper :=
        c.positionKeeper.modifyPosition c.ticker (·.removeOpenOrder side response.leavesQty) }
  | some .invalidRequest | none => c

/-- Step 3: `while let Some(response) = order_gateway.poll()`, given what each `try_recv`
returns. -/
def pollResponses (c : TradingClient) : List RecvResult → TradingClient
  | [] => c
  | recv :: rest =>
    match c.orderGateway.poll recv with
    | (orderGateway, some response) =>
      ({ c with orderGateway := orderGateway }.onResponse response).pollResponses rest
    | (orderGateway, none) => { c with orderGateway := orderGateway }

/-- `check_order` on `position`, then `send_new_order` when it allows: the client after, and
the request sent. -/
def sendChecked (c : TradingClient) (position : Position) (order : OrderRequest) :
    TradingClient × List ClientRequest :=
  if (c.riskManager.checkOrder position order.side order.qty order.price).isAllowed then
    let (orderGateway, _, request) :=
      c.orderGateway.sendNewOrder order.tickerId order.side order.price order.qty
    ({ c with orderGateway := orderGateway }, [request])
  else (c, [])

/-- One side of a quote, sent when present. -/
def sendQuoteSide (c : TradingClient) (position : Position) :
    Option OrderRequest → TradingClient × List ClientRequest
  | some order => c.sendChecked position order
  | none => (c, [])

/-- Executing an action: a quote's bid, then its ask; a take; nothing for `CancelAll`, which
`main` leaves unimplemented, or for `None`. -/
def execute (c : TradingClient) (position : Position) :
    StrategyAction → TradingClient × List ClientRequest
  | .quote pair =>
    let (c, bid) := c.sendQuoteSide position pair.bid
    let (c, ask) := c.sendQuoteSide position pair.ask
    (c, bid ++ ask)
  | .take order => c.sendChecked position order
  | .cancelAll _ | .none => (c, [])

/-- The strategy's action: the market maker's on the features, or the liquidity taker's on
them, the time and the ticker's best prices; `none` where the strategy panics. -/
def strategyAction (c : TradingClient) (features : TickerFeatures) (now : Nat) :
    Option (TradingClient × StrategyAction) :=
  match c.marketMaker, c.liquidityTaker with
  | some mm, none =>
    (mm.onFeatures features).map fun (mm, action) => ({ c with marketMaker := some mm }, action)
  | none, some lt =>
    match c.marketDataReceiver.getBbo c.ticker with
    | some bbo =>
      (lt.onFeatures features now bbo.bidPrice bbo.askPrice).map fun (lt, action) =>
        ({ c with liquidityTaker := some lt }, action)
    | none => some (c, .none)
  | _, _ => some (c, .none)

/-- Step 4: with valid features, `get_position_mut`, and with the position within its limits,
the strategy's action; `none` where the strategy panics. -/
def runStrategy (c : TradingClient) (now : Nat) : Option (TradingClient × List ClientRequest) :=
  match c.featureEngine.getFeatures c.ticker with
  | some features =>
    if features.isValid then
      let c := { c with positionKeeper := c.positionKeeper.modifyPosition c.ticker id }
      let position := c.positionKeeper.positionOf c.ticker
      if (c.riskManager.checkPosition position).isAllowed then
        (c.strategyAction features now).map fun (c, action) => c.execute position action
      else some (c, [])
    else some (c, [])
  | none => some (c, [])

/-- What one iteration is handed: the results of the multicast socket's `try_recv` calls, those
of the gateway's, and `now_nanos()`. -/
structure Tick where
  datagrams : List MulticastRecv
  responses : List RecvResult
  now : Nat

/-- One iteration of the loop: the client after it and the requests it sent; `none` where it
panics. -/
def step (c : TradingClient) (tick : Tick) : Option (TradingClient × List ClientRequest) :=
  ((c.onMarketData tick.datagrams).pollResponses tick.responses).runStrategy tick.now

/-- The loop over `ticks`: the client after them and every request sent, in order. -/
def run (c : TradingClient) : List Tick → Option (TradingClient × List ClientRequest)
  | [] => some (c, [])
  | tick :: ticks =>
    (c.step tick).bind fun (c, sent) => (c.run ticks).map fun (c, rest) => (c, sent ++ rest)

/-! ## What each part of an iteration keeps -/

/-- The position of the client's ticker. -/
def position (c : TradingClient) : Int := (c.positionKeeper.positionOf c.ticker).position

/-- What every iteration keeps, for the arguments `main` started with. -/
structure Inv (args : Args) (c : TradingClient) : Prop where
  ticker : c.ticker = args.ticker
  clientId : c.orderGateway.clientId = args.clientId
  limits : c.riskManager.getLimits args.ticker =
    RiskLimits.new args.maxOrderQty args.maxPosition args.maxLoss 100
  keyed : c.positionKeeper.Keyed
  marketMaker : ∀ mm ∈ c.marketMaker,
    mm.config.tickerId = args.ticker ∧ mm.currentPosition = c.position
  liquidityTaker : ∀ lt ∈ c.liquidityTaker,
    lt.config.tickerId = args.ticker ∧ lt.currentPosition = c.position
  quantities : c.marketDataReceiver.QtyFits
  features : c.featureEngine.InRange

theorem inv_start (args : Args) : Inv args (start args) where
  ticker := rfl
  clientId := rfl
  limits := by simp [start, RiskManager.setLimits, RiskManager.getLimits, AList.lookup_insert]
  keyed t := by simp [start, PositionKeeper.positionOf, PositionKeeper.getPosition,
    PositionKeeper.new]
  marketMaker mm hmm := by
    cases hs : args.strategy <;> simp only [start, hs, Option.mem_def, reduceCtorEq,
      Option.some.injEq] at hmm
    subst hmm
    exact ⟨rfl, by simp [start, position, PositionKeeper.positionOf, PositionKeeper.getPosition,
      PositionKeeper.new, MarketMaker.new, Position.new]⟩
  liquidityTaker lt hlt := by
    cases hs : args.strategy <;> simp only [start, hs, Option.mem_def, reduceCtorEq,
      Option.some.injEq] at hlt
    subst hlt
    exact ⟨rfl, by simp [start, position, PositionKeeper.positionOf, PositionKeeper.getPosition,
      PositionKeeper.new, LiquidityTaker.new, Position.new]⟩
  quantities := MarketDataReceiver.qtyFits_new.reserveTickers _
  features := FeatureEngine.Reachable.new.reserveTickers _ |>.inRange

variable {args : Args} {c c' : TradingClient}

theorem getD_map_position (k : PositionKeeper) (t : TickerId) :
    ((k.getPosition t).map (·.position)).getD 0 = (k.positionOf t).position := by
  unfold PositionKeeper.positionOf; cases k.getPosition t <;> rfl

/-- A new position keeper, its ticker's position unchanged, keeps the invariant. -/
theorem Inv.withKeeper (h : Inv args c) {k : PositionKeeper} (hk : k.Keyed)
    (hp : (k.positionOf c.ticker).position = c.position) :
    Inv args { c with positionKeeper := k } :=
  { h with
    keyed := hk
    marketMaker := fun mm hm => ⟨(h.marketMaker mm hm).1, (h.marketMaker mm hm).2.trans hp.symm⟩
    liquidityTaker := fun lt hl =>
      ⟨(h.liquidityTaker lt hl).1, (h.liquidityTaker lt hl).2.trans hp.symm⟩ }

theorem Inv.onMarketData (h : Inv args c) (datagrams : List MulticastRecv) :
    Inv args (c.onMarketData datagrams) ∧
      (c.onMarketData datagrams).orderGateway = c.orderGateway := by
  have hq := h.quantities.pollAndProcess datagrams
  unfold TradingClient.onMarketData
  rcases hp : c.marketDataReceiver.pollAndProcess datagrams with ⟨r, ns, rest, n⟩
  rw [hp] at hq
  dsimp only
  have hr : Inv args { c with marketDataReceiver := r } := { h with quantities := hq }
  split_ifs
  · split
    · rename_i bbo hb
      obtain ⟨hbq, haq⟩ := hq _ _ hb
      have hfe := h.features.onBboUpdate hbq haq c.ticker
      cases bbo.midPrice with
      | none => exact ⟨{ hr with features := hfe }, rfl⟩
      | some mid =>
        exact ⟨{ hr.withKeeper (h.keyed.updateMarketPrice _ _)
          (PositionKeeper.positionOf_updateMarketPrice _ _ _ _).2.1 with features := hfe }, rfl⟩
    · exact ⟨hr, rfl⟩
  · exact ⟨hr, rfl⟩

theorem Inv.onResponse (h : Inv args c) (response : ClientResponse) :
    Inv args (c.onResponse response) ∧ (c.onResponse response).orderGateway = c.orderGateway := by
  unfold TradingClient.onResponse
  split
  · refine ⟨⟨h.ticker, h.clientId, h.limits, h.keyed.onFill _ _ _ _, ?_, ?_, h.quantities,
      h.features⟩, rfl⟩
    · intro mm hm
      obtain ⟨mm₀, hm₀, rfl⟩ := Option.mem_map.mp hm
      exact ⟨(h.marketMaker mm₀ hm₀).1, getD_map_position _ _⟩
    · intro lt hl
      obtain ⟨lt₀, hl₀, rfl⟩ := Option.mem_map.mp hl
      exact ⟨(h.liquidityTaker lt₀ hl₀).1, getD_map_position _ _⟩
  all_goals first
    | exact ⟨h, rfl⟩
    | refine ⟨h.withKeeper (h.keyed.modifyPosition _ fun p => by simp) ?_, rfl⟩
      rw [PositionKeeper.positionOf_modifyPosition, if_pos rfl]
      cases responseSide response <;> rfl

theorem Inv.pollResponses (h : Inv args c) (rs : List RecvResult) :
    Inv args (c.pollResponses rs) ∧
      (c.pollResponses rs).orderGateway.nextOrderId = c.orderGateway.nextOrderId := by
  induction rs generalizing c with
  | nil => exact ⟨h, rfl⟩
  | cons recv rest ih =>
    obtain ⟨hc, hn⟩ := OrderGateway.poll_ids c.orderGateway recv
    rcases hpoll : c.orderGateway.poll recv with ⟨g, _ | response⟩ <;> rw [hpoll] at hc hn <;>
      simp only [TradingClient.pollResponses, hpoll]
    · exact ⟨{ h with clientId := hc.trans h.clientId }, hn⟩
    · have h₁ : Inv args { c with orderGateway := g } :=
        { h with clientId := hc.trans h.clientId }
      obtain ⟨h₂, hg₂⟩ := h₁.onResponse response
      obtain ⟨h₃, hn₃⟩ := ih h₂
      exact ⟨h₃, by rw [hn₃, hg₂]; exact hn⟩

/-! ## What the client sends -/

/-- A request the client may send under `args`: a `New` of its client id for its ticker, of at
least one and at most `max_order_qty`. -/
structure Permitted (args : Args) (r : ClientRequest) : Prop where
  msgType : r.msgType = ClientRequestType.new.toU8
  clientId : r.clientId = args.clientId
  tickerId : r.tickerId = args.ticker
  qty_pos : 0 < r.qty
  qty_le : r.qty ≤ args.maxOrderQty

/-- `c'` follows `c` having sent `sent`: each request permitted, and numbered on from `c`'s next
order id. -/
structure Sends (args : Args) (c c' : TradingClient) (sent : List ClientRequest) : Prop where
  permitted : ∀ r ∈ sent, Permitted args r
  ids : sent.map (·.orderId) = List.range' c.orderGateway.nextOrderId sent.length
  next : c'.orderGateway.nextOrderId = c.orderGateway.nextOrderId + sent.length

theorem Sends.nil (h : c'.orderGateway.nextOrderId = c.orderGateway.nextOrderId) :
    Sends args c c' [] :=
  ⟨fun _ h => absurd h (List.not_mem_nil _), rfl, h⟩

theorem Sends.append {c₁ c₂ c₃ : TradingClient} {s₁ s₂ : List ClientRequest}
    (h₁ : Sends args c₁ c₂ s₁) (h₂ : Sends args c₂ c₃ s₂) :
    Sends args c₁ c₃ (s₁ ++ s₂) where
  permitted r hr := (List.mem_append.mp hr).elim (h₁.permitted r) (h₂.permitted r)
  ids := by
    rw [List.map_append, h₁.ids, h₂.ids, h₁.next, List.length_append, List.range'_append_1,
      Nat.add_comm s₁.length]
  next := by rw [h₂.next, h₁.next, List.length_append, Nat.add_assoc]

/-- Sending depends on where the numbering starts, nothing else. -/
theorem Sends.of_next_eq {c₀ : TradingClient} {sent : List ClientRequest}
    (h : Sends args c c' sent)
    (hn : c₀.orderGateway.nextOrderId = c.orderGateway.nextOrderId) : Sends args c₀ c' sent :=
  ⟨h.permitted, hn ▸ h.ids, hn ▸ h.next⟩

section Send

variable {p : Position} {o : OrderRequest}

/-- An order for the client's ticker, sent against its position, is permitted: `check_order`
keeps it within `max_order_qty`. -/
theorem Inv.sendChecked (h : Inv args c) (hp : p.tickerId = args.ticker)
    (ho : o.tickerId = args.ticker ∧ 0 < o.qty) :
    Inv args (c.sendChecked p o).1 ∧
      Sends args c (c.sendChecked p o).1 (c.sendChecked p o).2 := by
  unfold TradingClient.sendChecked
  split_ifs with ha
  · have hq := (RiskManager.checkOrder_allowed (RiskCheckResult.isAllowed_iff.mp ha)).1
    rw [hp, h.limits] at hq
    refine ⟨{ h with clientId := h.clientId }, ⟨?_, rfl, rfl⟩⟩
    intro r hr
    rw [List.mem_singleton] at hr
    subst hr
    exact ⟨rfl, h.clientId, ho.1, ho.2, hq⟩
  · exact ⟨h, .nil rfl⟩

theorem Inv.sendQuoteSide (h : Inv args c) (hp : p.tickerId = args.ticker)
    (oo : Option OrderRequest)
    (ho : ∀ o, oo = some o → o.tickerId = args.ticker ∧ 0 < o.qty) :
    Inv args (c.sendQuoteSide p oo).1 ∧
      Sends args c (c.sendQuoteSide p oo).1 (c.sendQuoteSide p oo).2 := by
  cases oo with
  | some o => exact h.sendChecked hp (ho o rfl)
  | none => exact ⟨h, .nil rfl⟩

theorem Inv.execute (h : Inv args c) (hp : p.tickerId = args.ticker) {act : StrategyAction}
    (ha : act.OrdersFor args.ticker) :
    Inv args (c.execute p act).1 ∧ Sends args c (c.execute p act).1 (c.execute p act).2 := by
  cases act with
  | quote pair =>
    obtain ⟨h₁, s₁⟩ := h.sendQuoteSide hp pair.bid fun o ho => ha o (.inl ho)
    obtain ⟨h₂, s₂⟩ := h₁.sendQuoteSide hp pair.ask fun o ho => ha o (.inr ho)
    exact ⟨h₂, s₁.append s₂⟩
  | take o => exact h.sendChecked hp ha
  | cancelAll _ => exact ⟨h, .nil rfl⟩
  | none => exact ⟨h, .nil rfl⟩

end Send

/-- The strategy keeps the invariant, changes nothing but itself, and acts only for the
client's ticker. -/
theorem Inv.strategyAction (h : Inv args c) {f : TickerFeatures} {now : Nat}
    {act : StrategyAction} (hs : c.strategyAction f now = some (c', act)) :
    Inv args c' ∧ c'.orderGateway = c.orderGateway ∧ c'.positionKeeper = c.positionKeeper ∧
      c'.ticker = c.ticker ∧ act.OrdersFor args.ticker := by
  unfold TradingClient.strategyAction at hs
  rcases hmm : c.marketMaker with _ | mm <;> rcases hlt : c.liquidityTaker with _ | lt <;>
    rw [hmm, hlt] at hs <;> dsimp only at hs
  case none.some =>
    rcases hb : c.marketDataReceiver.getBbo c.ticker with _ | bbo <;> rw [hb] at hs
    · cases hs; exact ⟨h, rfl, rfl, rfl, trivial⟩
    obtain ⟨⟨lt', act'⟩, hf, he⟩ := Option.map_eq_some'.mp hs
    cases he
    obtain ⟨hc, hpos, hact⟩ := LiquidityTaker.onFeatures_ordersFor hf
    obtain ⟨ht, hp⟩ := h.liquidityTaker lt hlt
    refine ⟨{ h with marketMaker := by rintro _ ⟨⟩, liquidityTaker := ?_ }, rfl, rfl, rfl,
      ht ▸ hact⟩
    rintro _ ⟨⟩
    exact ⟨hc ▸ ht, hpos.trans hp⟩
  case some.none =>
    obtain ⟨⟨mm', act'⟩, hf, he⟩ := Option.map_eq_some'.mp hs
    cases he
    obtain ⟨hc, hpos, hact⟩ := MarketMaker.onFeatures_ordersFor hf
    obtain ⟨ht, hp⟩ := h.marketMaker mm hmm
    refine ⟨{ h with marketMaker := ?_, liquidityTaker := by rintro _ ⟨⟩ }, rfl, rfl, rfl,
      ht ▸ hact⟩
    rintro _ ⟨⟩
    exact ⟨hc ▸ ht, hpos.trans hp⟩
  all_goals cases hs; exact ⟨h, rfl, rfl, rfl, trivial⟩

theorem Inv.runStrategy (h : Inv args c) {now : Nat} {sent : List ClientRequest}
    (hs : c.runStrategy now = some (c', sent)) : Inv args c' ∧ Sends args c c' sent := by
  unfold TradingClient.runStrategy at hs
  rcases hf : c.featureEngine.getFeatures c.ticker with _ | f <;> rw [hf] at hs
  · cases hs; exact ⟨h, .nil rfl⟩
  have h₁ : Inv args { c with positionKeeper := c.positionKeeper.modifyPosition c.ticker id } :=
    h.withKeeper (h.keyed.modifyPosition _ fun _ => rfl) (by
      simp only [PositionKeeper.positionOf_modifyPosition, if_true, id, position])
  dsimp only at hs
  split_ifs at hs
  · obtain ⟨⟨c₂, act⟩, hsa, he⟩ := Option.map_eq_some'.mp hs
    obtain ⟨h₂, hg₂, -, -, hact⟩ := h₁.strategyAction hsa
    obtain ⟨h₃, s₃⟩ := h₂.execute ((h₁.keyed c.ticker).trans h.ticker) hact
    rw [he] at h₃ s₃
    exact ⟨h₃, s₃.of_next_eq (congrArg (·.nextOrderId) hg₂).symm⟩
  all_goals cases hs
  · exact ⟨h₁, .nil rfl⟩
  · exact ⟨h, .nil rfl⟩

theorem Inv.step (h : Inv args c) {tick : Tick} {sent : List ClientRequest}
    (hs : c.step tick = some (c', sent)) : Inv args c' ∧ Sends args c c' sent := by
  obtain ⟨h₁, hg₁⟩ := h.onMarketData tick.datagrams
  obtain ⟨h₂, hn₂⟩ := h₁.pollResponses tick.responses
  obtain ⟨h₃, s₃⟩ := h₂.runStrategy hs
  exact ⟨h₃, s₃.of_next_eq (hn₂.trans (congrArg (·.nextOrderId) hg₁)).symm⟩

theorem Inv.run (h : Inv args c) {ticks : List Tick} {sent : List ClientRequest}
    (hr : c.run ticks = some (c', sent)) : Inv args c' ∧ Sends args c c' sent := by
  induction ticks generalizing c sent with
  | nil => cases hr; exact ⟨h, .nil rfl⟩
  | cons tick ticks ih =>
    obtain ⟨⟨c₁, s₁⟩, hs, hm⟩ := Option.bind_eq_some.mp hr
    obtain ⟨⟨c₂, s₂⟩, hr₂, he⟩ := Option.map_eq_some'.mp hm
    cases he
    obtain ⟨h₁, t₁⟩ := h.step hs
    obtain ⟨h₂, t₂⟩ := ih h₁ hr₂
    exact ⟨h₂, t₁.append t₂⟩

/-- One iteration that reads a bid of 10 at 100 and an ask of 7 at 101 from the feed. -/
def quoteTick : Tick :=
  ⟨MarketDataReceiver.datagrams [MarketDataReceiver.bidQuote, MarketDataReceiver.askQuote], [],
    0⟩

/-- What the default market maker sends on `quoteTick`. -/
def quoteOrders : List ClientRequest :=
  [.new .new 1 1 1 Side.buy.asSign 45 100, .new .new 1 1 2 Side.sell.asSign 153 100]

theorem run_quoteTick : ∃ c, (start Args.default).run [quoteTick] = some (c, quoteOrders) :=
  let ⟨⟨c, _⟩, h, he⟩ := Option.map_eq_some'.mp
    (show ((start Args.default).run [quoteTick]).map (·.2) = some quoteOrders by decide)
  ⟨c, he ▸ h⟩

/-- **Every run keeps the invariant.** After any sequence of iterations from `main`'s start, the
strategy's position is the position keeper's, every BBO has `u32` quantities, every features
record is in range, and the risk limits are those `main` set. -/
theorem run_keeps_inv {ticks : List Tick} {sent : List ClientRequest}
    (h : (start args).run ticks = some (c, sent)) : Inv args c :=
  ((inv_start args).run h).1

theorem default_run_keeps_inv :
    ∃ c, (start Args.default).run [quoteTick] = some (c, quoteOrders) ∧ Inv Args.default c :=
  let ⟨c, h⟩ := run_quoteTick
  ⟨c, h, run_keeps_inv h⟩

/-- **Every order sent is permitted.** Over any run from `main`'s start, each request sent is a
`New` of the client's id for its ticker, of at least one and at most `max_order_qty`, and the
order ids run 1, 2, 3, … in the order sent. -/
theorem run_sends_permitted {ticks : List Tick} {sent : List ClientRequest}
    (h : (start args).run ticks = some (c, sent)) :
    (∀ r ∈ sent, Permitted args r) ∧ sent.map (·.orderId) = List.range' 1 sent.length :=
  let hs := ((inv_start args).run h).2
  ⟨hs.permitted, hs.ids⟩

theorem default_run_sends_permitted :
    ∃ c, (start Args.default).run [quoteTick] = some (c, quoteOrders) ∧
      (∀ r ∈ quoteOrders, Permitted Args.default r) ∧
        quoteOrders.map (·.orderId) = List.range' 1 quoteOrders.length :=
  let ⟨c, h⟩ := run_quoteTick
  ⟨c, h, run_sends_permitted h⟩

/-! ## A fill counts twice -/

/-- **An order accepted and then filled counts twice.** Booking an `Accepted` buy of `q` and
then its `Filled` of `q` (with nothing left) raises the position by `q` and the open buy quantity
by `q` as well, so `max_long_exposure`, which `check_order` projects, rises by `2 q` for one
order of `q`. `TradeEngine::on_response` instead takes a fill out of the open quantity. -/
theorem fill_counts_twice (c : TradingClient) (clientId : ClientId) (tickerId : TickerId)
    (clientOrderId marketOrderId : OrderId) (price : Price) (q : Qty)
    (hb : (c.positionKeeper.positionOf c.ticker).openBuyQty + q < 2 ^ 32)
    (hp : -2 ^ 63 ≤ (c.positionKeeper.positionOf c.ticker).position ∧
      (c.positionKeeper.positionOf c.ticker).position + q < 2 ^ 63) :
    let p := ((c.onResponse (.new .accepted clientId tickerId clientOrderId marketOrderId 1 price
      0 q)).onResponse (.new .filled clientId tickerId clientOrderId marketOrderId 1 price q
      0)).positionKeeper.positionOf c.ticker
    p.position = (c.positionKeeper.positionOf c.ticker).position + q ∧
      p.openBuyQty = (c.positionKeeper.positionOf c.ticker).openBuyQty + q := by
  intro p
  simp only [p, TradingClient.onResponse, responseSide, ClientResponse.responseType,
    ClientResponse.new, ClientResponseType.fromU8_toU8, if_true,
    PositionKeeper.positionOf_onFill, PositionKeeper.positionOf_modifyPosition,
    Position.onFill_position, Position.onFill_openBuyQty, Position.addOpenOrder, Position.signedQty,
    u32Add]
  exact ⟨i64Wrap_of_range (by omega) hp.2, Nat.mod_eq_of_lt hb⟩

theorem default_fill_counts_twice :
    let p := (((start Args.default).onResponse (.new .accepted 1 1 1 1 1 100 0 10)).onResponse
      (.new .filled 1 1 1 1 1 100 10 0)).positionKeeper.positionOf 1
    p.position = 10 ∧ p.openBuyQty = 10 :=
  fill_counts_twice (start Args.default) 1 1 1 1 100 10 (by decide) ⟨by decide, by decide⟩

end TradingClient

end LowLatencyTrading
