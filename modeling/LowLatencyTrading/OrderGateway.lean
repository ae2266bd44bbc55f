import LowLatencyTrading.MatchingEngine
import LowLatencyTrading.OrderServer

/-!
# The order gateway (`trading/src/order_gateway.rs`)

A trading client's connection to the exchange. `send_new_order` numbers each `New` from the
gateway's own counter `next_order_id`, which starts at 1 in every gateway, and keeps the order in
`pending_orders` under that id; `send_cancel` sends a `Cancel` carrying the id it is given. The
exchange answers a `New` with the market order id of its own, global counter, and
`handle_cancel` looks the `Cancel`'s id up among those market ids.

A `Venue` is the exchange's engine with one gateway per client id; a call is delivered and
processed at once, which is one of the interleavings the order server allows. The client's and
the market's numbering meet only while a single gateway trades and every `New` reaches a book
(`Venue.run_accepted_ids`). With two gateways they part at the second `New`, and a gateway that
cancels the id it was given removes the other client's order (`cancel_by_gateway_id`).
-/

namespace LowLatencyTrading

/-- `PendingOrder`; the send time, which nothing reads, is left out. -/
structure PendingOrder where
  orderId : OrderId
  tickerId : TickerId
  side : Side
  price : Price
  qty : Qty
  deriving DecidableEq, Repr

/-- `OrderGateway`, without its socket: what it sends is the result of each call. -/
structure OrderGateway where
  clientId : ClientId
  nextOrderId : OrderId
  pendingOrders : HashMap OrderId PendingOrder
  recvBuffer : List UInt8

namespace OrderGateway

/-- `OrderGateway::connect`. -/
def connect (clientId : ClientId) : OrderGateway := ⟨clientId, 1, ∅, []⟩

/-- `send_new_order`: the gateway, the id it returns, and the request it sends. -/
def sendNewOrder (g : OrderGateway) (tickerId : TickerId) (side : Side) (price : Price)
    (qty : Qty) : OrderGateway × OrderId × ClientRequest :=
  let orderId := g.nextOrderId
  let request := ClientRequest.new .new g.clientId tickerId orderId side.asSign price qty
  ({ g with nextOrderId := g.nextOrderId + 1,
            pendingOrders := g.pendingOrders.insert orderId ⟨orderId, tickerId, side, price, qty⟩ },
    orderId, request)

/-- `send_cancel`: the request it sends, with the pending order's side, price and quantity, or
zeros for an id it does not track. -/
def sendCancel (g : OrderGateway) (orderId : OrderId) (tickerId : TickerId) : ClientRequest :=
  let (side, price, qty) : Int × Price × Qty :=
    match g.pendingOrders.lookup orderId with
    | some pending => (pending.side.asSign, pending.price, pending.qty)
    | none => (0, 0, 0)
  ClientRequest.new .cancel g.clientId tickerId orderId side price qty

/-- The update of `pending_orders` in `poll`: a terminal response, or a fill with nothing left,
drops the order. -/
def updatePending (g : OrderGateway) (response : ClientResponse) : OrderGateway :=
  match response.responseType with
  | some .canceled | some .cancelRejected | some .invalidRequest =>
    { g with pendingOrders := g.pendingOrders.erase response.clientOrderId }
  | some .filled =>
    if response.leavesQty = 0 then
      { g with pendingOrders := g.pendingOrders.erase response.clientOrderId }
    else g
  | some .accepted | none => g

/-- `poll`, given what `try_recv` returned: at most one response, cut from the front of
`recv_buffer`. -/
def poll (g : OrderGateway) (recv : RecvResult) : OrderGateway × Option ClientResponse :=
  match recv with
  | .wouldBlock | .error => (g, none)
  | .data _ | .empty =>
    let buf := g.recvBuffer ++ recv.bytes
    let g := { g with recvBuffer := buf }
    if clientResponseSize ≤ buf.length then
      match ClientResponse.fromBytes (buf.take clientResponseSize) with
      | some response =>
        ({ g with recvBuffer := buf.drop clientResponseSize }.updatePending response,
          some response)
      | none => (g, none)
    else (g, none)

end OrderGateway

/-! ## Gateways on one exchange -/

/-- A call one client makes on its gateway. -/
inductive GatewayCall where
  | newOrder (clientId : ClientId) (tickerId : TickerId) (side : Side) (price : Price) (qty : Qty)
  | cancel (clientId : ClientId) (orderId : OrderId) (tickerId : TickerId)
  deriving DecidableEq, Repr

/-- The exchange's engine and the gateway of every client. -/
structure Venue where
  gateways : ClientId → OrderGateway
  engine : MatchingEngine

namespace Venue

/-- Every client connected, on an engine started with `tickers`. -/
def init (tickers : List TickerId) : Venue := ⟨OrderGateway.connect, MatchingEngine.start tickers⟩

/-- One call: the gateway sends its request, and the engine processes it. -/
def call (v : Venue) : GatewayCall → Venue × (ClientResponse × List MarketUpdate)
  | .newOrder c t side price qty =>
    let sent := (v.gateways c).sendNewOrder t side price qty
    let done := v.engine.processRequest sent.2.2
    (⟨Function.update v.gateways c sent.1, done.1⟩, done.2)
  | .cancel c orderId t =>
    let done := v.engine.processRequest ((v.gateways c).sendCancel orderId t)
    (⟨v.gateways, done.1⟩, done.2)

/-- The calls one after another, with the engine's output for each. -/
def run (v : Venue) : List GatewayCall → Venue × List (ClientResponse × List MarketUpdate)
  | [] => (v, [])
  | c :: cs =>
    let done := v.call c
    let rest := done.1.run cs
    (rest.1, done.2 :: rest.2)

@[simp] theorem run_nil (v : Venue) : v.run [] = (v, []) := rfl

@[simp] theorem run_cons (v : Venue) (c : GatewayCall) (cs : List GatewayCall) :
    v.run (c :: cs) = (((v.call c).1.run cs).1, (v.call c).2 :: ((v.call c).1.run cs).2) := rfl

/-! ## One gateway -/

/-- A call of client `c` whose `New`, if it is one, names a ticker of `tickers`. -/
def OfClient (c : ClientId) (tickers : List TickerId) : GatewayCall → Prop
  | .newOrder c' t _ _ _ => c' = c ∧ t ∈ tickers
  | .cancel c' _ _ => c' = c

instance (c : ClientId) (tickers : List TickerId) : DecidablePred (OfClient c tickers)
  | .newOrder .. => inferInstanceAs (Decidable (_ ∧ _))
  | .cancel .. => inferInstanceAs (Decidable (_ = _))

/-- Client `c`'s gateway and the engine count alike, and each of `tickers` has a book. -/
structure Synced (c : ClientId) (tickers : List TickerId) (v : Venue) : Prop where
  next : (v.gateways c).nextOrderId = v.engine.nextOrderId
  books : ∀ t ∈ tickers, t ∈ v.engine.orderBooks

theorem Synced.init (c : ClientId) (tickers : List TickerId) : Synced c tickers (init tickers) where
  next := (MatchingEngine.start_nextOrderId tickers).symm
  books _ := MatchingEngine.mem_start

/-- One call of client `c` keeps the counters together, and an `Accepted` it gets carries the
gateway's id as the market's. -/
theorem Synced.call {c : ClientId} {tickers : List TickerId} {v : Venue} (h : Synced c tickers v)
    {gc : GatewayCall} (hc : OfClient c tickers gc) :
    Synced c tickers (v.call gc).1 ∧
      ((v.call gc).2.1.msgType = ClientResponseType.accepted.toU8 →
        (v.call gc).2.1.clientOrderId = (v.call gc).2.1.marketOrderId) := by
  cases gc with
  | newOrder c' t side price qty =>
    obtain ⟨rfl, ht⟩ := hc
    have hn := MatchingEngine.processRequest_nextOrderId v.engine
      ((v.gateways c').sendNewOrder t side price qty).2.2
    rw [if_pos ⟨by simp [OrderGateway.sendNewOrder, ClientRequest.new], h.books t ht,
      by cases side <;> rfl⟩] at hn
    refine ⟨⟨by simp only [Venue.call, Function.update_same]; rw [hn, ← h.next]; rfl, fun t' ht' =>
      MatchingEngine.mem_processRequest _ (h.books t' ht')⟩, fun ha => ?_⟩
    obtain ⟨-, hco, hmo⟩ := MatchingEngine.processRequest_accepted ha
    simp only [Venue.call] at hco hmo ⊢
    rw [hco, hmo, ← h.next]
    rfl
  | cancel c' o t =>
    have hn := MatchingEngine.processRequest_nextOrderId v.engine ((v.gateways c').sendCancel o t)
    rw [if_neg (by simp [OrderGateway.sendCancel, ClientRequest.new])] at hn
    refine ⟨⟨by simp [Venue.call, hn, h.next], fun t' ht' =>
      MatchingEngine.mem_processRequest _ (h.books t' ht')⟩, fun ha => ?_⟩
    have := (MatchingEngine.processRequest_accepted ha).1
    simp [OrderGateway.sendCancel, ClientRequest.new] at this

theorem Synced.run {c : ClientId} {tickers : List TickerId} {calls : List GatewayCall}
    (hcs : ∀ gc ∈ calls, OfClient c tickers gc) {v : Venue} (h : Synced c tickers v) :
    Synced c tickers (v.run calls).1 ∧
      ∀ out ∈ (v.run calls).2, out.1.msgType = ClientResponseType.accepted.toU8 →
        out.1.clientOrderId = out.1.marketOrderId := by
  induction calls generalizing v with
  | nil => exact ⟨h, fun _ ho => absurd ho (List.not_mem_nil _)⟩
  | cons gc calls ih =>
    obtain ⟨hs, ha⟩ := h.call (hcs gc (List.mem_cons_self _ _))
    obtain ⟨hs', ha'⟩ := ih (fun gc' hgc => hcs gc' (List.mem_cons_of_mem _ hgc)) hs
    refine ⟨hs', fun out ho => ?_⟩
    rcases List.mem_cons.mp ho with rfl | ho
    · exact ha
    · exact ha' out ho

/-- **With one gateway, its ids are the market's.** While only client `c` trades and each of its
`New`s names a ticker the engine was started with, the gateway's counter stays equal to the
engine's, so every `Accepted` carries the gateway's id as the market order id, and a `Cancel` of
that id reaches the order it named. -/
theorem run_accepted_ids {c : ClientId} {tickers : List TickerId} {calls : List GatewayCall}
    (hcs : ∀ gc ∈ calls, OfClient c tickers gc) :
    (((init tickers).run calls).1.gateways c).nextOrderId =
        ((init tickers).run calls).1.engine.nextOrderId ∧
      ∀ out ∈ ((init tickers).run calls).2, out.1.msgType = ClientResponseType.accepted.toU8 →
        out.1.clientOrderId = out.1.marketOrderId :=
  have h := Synced.run hcs (Synced.init c tickers)
  ⟨h.1.next, h.2⟩

theorem run_accepted_ids_two_orders :
    (∀ gc ∈ [GatewayCall.newOrder 3 1 .buy 100 10, .newOrder 3 1 .sell 101 5, .cancel 3 1 1],
        OfClient 3 [1] gc) ∧
      ((((init [1]).run [.newOrder 3 1 .buy 100 10, .newOrder 3 1 .sell 101 5,
          .cancel 3 1 1]).1.gateways 3).nextOrderId =
        ((init [1]).run [.newOrder 3 1 .buy 100 10, .newOrder 3 1 .sell 101 5,
          .cancel 3 1 1]).1.engine.nextOrderId) :=
  ⟨by decide, (run_accepted_ids (by decide)).1⟩

/-! ## Two gateways -/

/-- Clients 1 and 2 each send a `New` on ticker 1; then client 2 cancels the id its own
`send_new_order` returned. -/
def crossCancel : List GatewayCall :=
  [.newOrder 1 1 .buy 100 10, .newOrder 2 1 .buy 100 10, .cancel 2 1 1]

/-- **A gateway's cancel can remove another client's order.** Both gateways number their first
`New` 1, and the engine gives client 1's order market id 1 and client 2's market id 2. Client
2's `Cancel` of its own id 1 is answered `Canceled` and removes market order 1, client 1's, while
client 2's order stays in the book. -/
theorem cancel_by_gateway_id :
    (((init [1]).gateways 2).sendNewOrder 1 .buy 100 10).2.1 = 1 ∧
      ((init [1]).run crossCancel).2 =
        [(ClientResponse.new .accepted 1 1 1 1 1 100 0 10,
            [MarketUpdate.new .add 1 1 1 100 10 1]),
          (ClientResponse.new .accepted 2 1 1 2 1 100 0 10,
            [MarketUpdate.new .add 1 2 1 100 10 2]),
          (ClientResponse.new .canceled 2 1 1 1 1 100 0 10,
            [MarketUpdate.new .cancel 1 1 1 100 10 1])] ∧
      ((init [1]).run crossCancel).1.engine.view 1 1 = none ∧
      ((init [1]).run crossCancel).1.engine.view 1 2 = some (1, 100, 10) := by
  decide

end Venue

end LowLatencyTrading
