import LowLatencyTrading.TradeEngineInvariant

/-!
# The cached total P&L (`trading/src/position.rs`, `trading/src/trade_engine.rs`)

`PositionKeeper` caches the sum of its positions' total P&L and refreshes it in `on_fill` and
`update_market_price`. The trade engine also reaches positions through `get_position_mut` alone:
`submit_order` adds to a position's pending quantity, and `on_response` takes from it after a
fill or a cancel. Those paths skip `recalculate_total_pnl`, and they need not call it: the
pending quantities are no part of the P&L, and a position that `get_position_mut` creates has
P&L 0 (`PositionKeeper.Coherent.modifyPosition`).

So the cache is right after every call of the engine, with no assumption on the calls and
`reset` included, since `reset` keeps the positions, and after every call made on a keeper
directly (`cache_coherent`).
-/

namespace LowLatencyTrading

namespace TradeEngine

/-- The engine's position keeper has its cache right. -/
abbrev PnlCoherent (e : TradeEngine) : Prop := e.positionKeeper.Coherent

section Coherent

variable {e : TradeEngine}

theorem PnlCoherent.submitOrder (h : e.PnlCoherent) (t : TickerId) (side : Side) (price : Price)
    (qty : Qty) (cb : Option OrderId) : (e.submitOrder t side price qty cb).1.PnlCoherent := by
  rcases submitOrder_cases e t side price qty cb with ⟨-, he⟩ | ⟨-, -, hk, -⟩
  · rw [he]; exact h
  · rw [PnlCoherent, hk]
    exact h.modifyPosition t fun p => p.addOpenOrder_totalPnl side qty

theorem PnlCoherent.submitAll (h : e.PnlCoherent) (os : List OrderRequest)
    (cbs : List (Option OrderId)) : (e.submitAll os cbs).1.PnlCoherent := by
  induction os generalizing e cbs with
  | nil => exact h
  | cons o os ih => exact ih (h.submitOrder ..) _

theorem PnlCoherent.onResponse (h : e.PnlCoherent) (r : ClientResponse) :
    (e.onResponse r).PnlCoherent := by
  rcases onResponse_cases e r with he | ⟨-, -, -, he⟩ | ⟨o, -, ⟨-, hk, -⟩ | ⟨hk, -⟩⟩
  · rw [he]; exact h
  · rw [he]; exact h
  · rw [PnlCoherent, hk]
    exact (PositionKeeper.Coherent.onFill ..).modifyPosition _ fun p =>
      p.removeOpenOrder_totalPnl o.side r.execQty
  · rw [PnlCoherent, hk]
    exact h.modifyPosition _ fun p => p.removeOpenOrder_totalPnl o.side o.leavesQty

theorem PnlCoherent.onMarketUpdate (h : e.PnlCoherent) (u : MarketUpdate) :
    (e.onMarketUpdate u).1.PnlCoherent := by
  obtain ⟨price, hk | hk⟩ := onMarketUpdate_positionKeeper e u <;> rw [PnlCoherent, hk]
  · exact h
  · exact h.updateMarketPrice _ _

theorem PnlCoherent.updateBbo (h : e.PnlCoherent) (t : TickerId) (bbo : BBO) :
    (e.updateBbo t bbo).PnlCoherent := by
  obtain ⟨price, hk | hk⟩ := updateBbo_positionKeeper e t bbo <;> rw [PnlCoherent, hk]
  · exact h
  · exact h.updateMarketPrice _ _

/-- Asking nothing of the responses asks nothing of a batch. -/
theorem responsesOk_true (e : TradeEngine) (rs : List ClientResponse) :
    ResponsesOk (fun _ _ => True) e rs := by
  induction rs generalizing e with
  | nil => trivial
  | cons r rs ih => exact ⟨trivial, ih _⟩

theorem PnlCoherent.runCycle (h : e.PnlCoherent) (rs : List ClientResponse)
    (us : List MarketUpdate) : (e.runCycle rs us).1.PnlCoherent :=
  ResponsesOk.runCycle PnlCoherent (fun _ r h _ => h.onResponse r)
    (fun _ u h => h.onMarketUpdate u) h (responsesOk_true e rs) us

/-- Every call keeps the cache right, whatever its callbacks return. -/
theorem PnlCoherent.call (h : e.PnlCoherent) (c : EngineCall) : (e.call c).PnlCoherent := by
  cases c with
  | submitOrder t side price qty cb => exact h.submitOrder t side price qty cb
  | processStrategyAction action cbs =>
    show (e.processStrategyAction action cbs).1.PnlCoherent
    rw [processStrategyAction_eq]; exact h.submitAll _ _
  | onResponse r => exact h.onResponse r
  | onMarketUpdate u => exact h.onMarketUpdate u
  | updateBbo t bbo => exact h.updateBbo t bbo
  | runCycle rs us => exact h.runCycle rs us
  | start | stop | cancelOrder _ | cancelAllOrders _ | reset => exact h

theorem Reachable.pnlCoherent {ok : TradeEngine → EngineCall → Prop} {config : TradeEngineConfig}
    {rm : RiskManager} (h : Reachable ok config rm e) : e.PnlCoherent := by
  induction h with
  | new => exact PositionKeeper.Coherent.new
  | call c _ _ ih => exact ih.call c

end Coherent

end TradeEngine

namespace PositionKeeper

/-- The keepers reached from `PositionKeeper::new` by `on_fill` and `update_market_price`
calls. -/
inductive Reachable : PositionKeeper → Prop
  | new : Reachable .new
  | onFill {k : PositionKeeper} (t : TickerId) (side : Side) (qty : Qty) (price : Price) :
      Reachable k → Reachable (k.onFill t side qty price)
  | updateMarketPrice {k : PositionKeeper} (t : TickerId) (price : Price) :
      Reachable k → Reachable (k.updateMarketPrice t price)

theorem Reachable.coherent {k : PositionKeeper} (h : k.Reachable) : k.Coherent := by
  induction h with
  | new => exact Coherent.new
  | onFill t side qty price _ _ => exact Coherent.onFill _ t side qty price
  | updateMarketPrice t price _ ih => exact ih.updateMarketPrice t price

/-- **The cached total P&L is always the sum.** For every keeper that a trade engine reaches
through any calls (submissions, strategy actions, responses, market updates, `update_bbo`, cycles,
cancels and `reset`), and every keeper reached directly through `on_fill` and
`update_market_price`: `total_pnl()` equals the wrapping sum of `total_pnl()` over the
positions. -/
theorem cache_coherent :
    (∀ (ok : TradeEngine → TradeEngine.EngineCall → Prop) config rm e,
      TradeEngine.Reachable ok config rm e → e.positionKeeper.totalPnl =
        i64Wrap (e.positionKeeper.positions.entries.map fun p => p.2.totalPnl).sum) ∧
      ∀ k : PositionKeeper, k.Reachable →
        k.totalPnl = i64Wrap (k.positions.entries.map fun p => p.2.totalPnl).sum :=
  ⟨fun _ _ _ _ h => h.pnlCoherent, fun _ h => h.coherent⟩

/-- An engine submits a bid of 10 at 100 and the order fills: `on_fill` refreshes the cache and
`get_position_mut` then takes the fill off the pending quantity without refreshing it. A trade
at 105 marks the position up to a P&L of 50, and an offer of 5 at 106 reaches the position
through `get_position_mut` again. The cache still holds the sum, 50; and a keeper after a fill
and a price update has its cache right. -/
theorem cache_coherent_submit_fill :
    let e := (((((TradeEngine.new ⟨1, [1], true, 100⟩).submitOrder 1 .buy 100 10 (some 1)).1.onResponse
      (ClientResponse.new .filled 1 1 1 7 1 100 10 0)).onMarketUpdate
        (MarketUpdate.new .trade 1 9 1 105 3 0)).1.submitOrder 1 .sell 106 5 (some 2)).1
    let k := (PositionKeeper.new.onFill 1 .buy 10 100).updateMarketPrice 1 105
    e.positionKeeper.totalPnl = 50 ∧ (e.positionKeeper.positionOf 1).openSellQty = 5 ∧
      e.positionKeeper.totalPnl =
        i64Wrap (e.positionKeeper.positions.entries.map fun p => p.2.totalPnl).sum ∧
      k.totalPnl = i64Wrap (k.positions.entries.map fun p => p.2.totalPnl).sum :=
  ⟨by decide, by decide,
    cache_coherent.1 (fun _ _ => True) ⟨1, [1], true, 100⟩ .new _ (.call (.submitOrder 1 .sell 106 5 (some 2))
      (.call (.onMarketUpdate (MarketUpdate.new .trade 1 9 1 105 3 0))
        (.call (.onResponse (ClientResponse.new .filled 1 1 1 7 1 100 10 0))
          (.call (.submitOrder 1 .buy 100 10 (some 1)) .new trivial) trivial) trivial) trivial),
    cache_coherent.2 _ (.updateMarketPrice 1 105 (.onFill 1 .buy 10 100 .new))⟩

end PositionKeeper

end LowLatencyTrading
