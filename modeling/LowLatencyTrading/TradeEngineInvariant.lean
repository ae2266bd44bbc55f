import LowLatencyTrading.TradeEngine

/-!
# Invariants of the trade engine's runs

A run is a sequence of `EngineCall`s from `TradeEngine::new`, with the risk manager set once and
then left alone. Each invariant comes with what it assumes of the calls, and what it assumes is
what the source's callers provide: the submit callback returns ids that are not pending, and a
response that names a pending order carries that order's ticker.

**The exposure bound.** With the risk checks on, the engine never lets a ticker's position, with
all its pending orders of one side filled, pass `max_position` (`Reachable.exposure`). The risk
check only sees the position's `open_buy_qty` and `open_sell_qty`, so the bound rests on those
two following the pending orders: `submit_order` adds an order's quantity, a fill moves its
executed part from pending into the position, and a cancel or a rejection takes the rest out.
It also assumes that a fill of a pending order accounts for its leaves quantity
(`exec_qty + leaves_qty` is what was left), that `max_position` is at most `2^31 - 1`, so that
no `u32` pending quantity and no `i64` position wraps, and that `max_order_qty` is a `u32`.
`reset` forgets the pending orders and keeps the positions, so it is not a call of these runs.

**The open-order count.** `open_order_count` follows the pending orders, and with the risk
checks on stays within `max_open_orders`, as long as every response that ends an order names a
pending one (`Reachable.counts`). `untracked_fill_breaks_count` shows the one branch that needs
this: a `Filled` with nothing left lowers the count whether or not its id is pending.
-/

namespace LowLatencyTrading

namespace TradeEngine

/-! ## Runs -/

/-- Each response of a batch satisfies `ok` when the engine handles it. -/
def ResponsesOk (ok : TradeEngine → ClientResponse → Prop) (e : TradeEngine) :
    List ClientResponse → Prop
  | [] => True
  | r :: rs => ok e r ∧ ResponsesOk ok (e.onResponse r) rs

theorem ResponsesOk.take {ok : TradeEngine → ClientResponse → Prop} {e : TradeEngine}
    {rs : List ClientResponse} (h : ResponsesOk ok e rs) : ∀ n, ResponsesOk ok e (rs.take n) := by
  induction rs generalizing e with
  | nil => intro n; simpa using h
  | cons r rs ih =>
    rintro (_ | n)
    · trivial
    · exact ⟨h.1, ih h.2 n⟩

/-- Each submission of a batch gets an id that is not pending when it is made. -/
def FreshIds (e : TradeEngine) : List OrderRequest → List (Option OrderId) → Prop
  | [], _ => True
  | o :: os, callbacks =>
    e.submittedId callbacks.head?.join ∉ e.pendingOrders ∧
      (e.submitOrder o.tickerId o.side o.price o.qty callbacks.head?.join).1.FreshIds os
        callbacks.tail

/-- A call made as the runs assume: a submission's id is not pending, and each response it
handles satisfies `ok`. -/
def CallOk (ok : TradeEngine → ClientResponse → Prop) (e : TradeEngine) : EngineCall → Prop
  | .submitOrder _ _ _ _ callback => e.submittedId callback ∉ e.pendingOrders
  | .processStrategyAction action callbacks => e.FreshIds (actionOrders action) callbacks
  | .onResponse r => ok e r
  | .runCycle responses _ => ResponsesOk ok e responses
  | _ => True

/-- The engines a run reaches from `TradeEngine::new(config)` with risk manager `rm`, each call
made when `ok` holds of it. -/
inductive Reachable (ok : TradeEngine → EngineCall → Prop) (config : TradeEngineConfig)
    (rm : RiskManager) : TradeEngine → Prop
  | new : Reachable ok config rm { TradeEngine.new config with riskManager := rm }
  | call {e : TradeEngine} (c : EngineCall) : Reachable ok config rm e → ok e c →
      Reachable ok config rm (e.call c)

section Preserve

variable {ok : TradeEngine → ClientResponse → Prop} (P : TradeEngine → Prop)
  (hsubmit : ∀ e t side price qty cb, P e → e.submittedId cb ∉ e.pendingOrders →
    P (e.submitOrder t side price qty cb).1)
  (hresponse : ∀ e r, P e → ok e r → P (e.onResponse r))
  (hupdate : ∀ e u, P e → P (e.onMarketUpdate u).1)

include hsubmit in
theorem FreshIds.preserve {os : List OrderRequest} :
    ∀ {e : TradeEngine} {callbacks : List (Option OrderId)}, P e → e.FreshIds os callbacks →
      P (e.submitAll os callbacks).1 := by
  induction os with
  | nil => exact fun h _ => h
  | cons o os ih => exact fun h hf => ih (hsubmit _ _ _ _ _ _ h hf.1) hf.2

include hresponse hupdate in
/-- A cycle handles a prefix of the responses, then of the market updates. -/
theorem ResponsesOk.runCycle {e : TradeEngine} {rs : List ClientResponse}
    (h : P e) (hr : ResponsesOk ok e rs) (us : List MarketUpdate) : P (e.runCycle rs us).1 := by
  have hrs : ∀ {rs : List ClientResponse} {e : TradeEngine}, P e → ResponsesOk ok e rs →
      P (rs.foldl TradeEngine.onResponse e) := by
    intro rs
    induction rs with
    | nil => exact fun h _ => h
    | cons r rs ih => exact fun h hr => ih (hresponse _ _ h hr.1) hr.2
  have hus : ∀ {us : List MarketUpdate} {e : TradeEngine}, P e →
      P (us.foldl (fun e u => (e.onMarketUpdate u).1) e) := by
    intro us
    induction us with
    | nil => exact fun h => h
    | cons u us ih => exact fun h => ih (hupdate _ _ h)
  unfold TradeEngine.runCycle
  split
  · exact h
  · exact hus (hrs h (hr.take _))

include hsubmit hresponse hupdate in
/-- **Package of the run induction.** A property kept by `start`, `stop`, each submission with a
fresh id, each response satisfying `ok`, each market update and `update_bbo` is kept by every
call but `reset` made as `CallOk ok` asks. -/
theorem CallOk.preserve (hstart : ∀ e, P e → P e.start) (hstop : ∀ e, P e → P e.stop)
    (hbbo : ∀ e t bbo, P e → P (e.updateBbo t bbo)) {e : TradeEngine} (h : P e) {c : EngineCall}
    (hc : c ≠ .reset) (hok : CallOk ok e c) : P (e.call c) := by
  cases c with
  | start => exact hstart e h
  | stop => exact hstop e h
  | submitOrder t side price qty cb => exact hsubmit e t side price qty cb h hok
  | processStrategyAction action callbacks =>
    show P (e.processStrategyAction action callbacks).1
    rw [processStrategyAction_eq]; exact FreshIds.preserve P hsubmit h hok
  | cancelOrder _ | cancelAllOrders _ => exact h
  | onResponse r => exact hresponse e r h hok
  | onMarketUpdate u => exact hupdate e u h
  | updateBbo t bbo => exact hbbo e t bbo h
  | runCycle rs us => exact ResponsesOk.runCycle P hresponse hupdate h hok us
  | reset => exact absurd rfl hc

end Preserve

/-! ## Pending quantities -/

/-- The leaves quantity of a pending order, if it is on ticker `t` and side `s`. -/
def leavesOn (t : TickerId) (s : Side) (o : TrackedOrder) : Nat :=
  if o.tickerId = t ∧ o.side = s then o.leavesQty else 0

/-- The leaves quantities of the pending orders on ticker `t` and side `s`. -/
def pendingQty (e : TradeEngine) (t : TickerId) (s : Side) : Nat :=
  e.pendingOrders.sumBy (leavesOn t s)

/-- `m'` is `m` with `q` of the pending order `o`'s quantity gone from its ticker and side. -/
def Releases (m m' : HashMap OrderId TrackedOrder) (o : TrackedOrder) (q : Nat) : Prop :=
  ∀ t s, m'.sumBy (leavesOn t s) + (if o.tickerId = t ∧ o.side = s then q else 0) =
    m.sumBy (leavesOn t s)

theorem sumBy_leavesOn_insert {m : HashMap OrderId TrackedOrder} {id : OrderId} (h : id ∉ m)
    (o : TrackedOrder) (t : TickerId) (s : Side) :
    (m.insert id o).sumBy (leavesOn t s) = m.sumBy (leavesOn t s) + leavesOn t s o := by
  rw [AList.sumBy_insert, AList.erase_of_not_mem h, Nat.add_comm]

/-- A cancel or a rejection takes the whole order out. -/
theorem releases_erase {m : HashMap OrderId TrackedOrder} {id : OrderId} {o : TrackedOrder}
    (h : m.lookup id = some o) : Releases m (m.erase id) o o.leavesQty := fun t s => by
  rw [AList.sumBy_of_lookup h, leavesOn, Nat.add_comm]

/-- A fill takes out what it executed: the order goes when nothing is left, and otherwise stays
with the new leaves quantity. -/
theorem releases_fill {m : HashMap OrderId TrackedOrder} {id : OrderId} {o : TrackedOrder}
    (h : m.lookup id = some o) {execQty leavesQty : Nat}
    (hq : execQty + leavesQty = o.leavesQty) :
    Releases m (if leavesQty = 0 then m.erase id else m.insert id { o with leavesQty := leavesQty })
      o execQty := fun t s => by
  by_cases hl : leavesQty = 0
  · have := releases_erase h t s
    rw [← hq, hl, Nat.add_zero] at this
    rwa [if_pos hl]
  · rw [if_neg hl, AList.sumBy_insert, AList.sumBy_of_lookup h (leavesOn t s)]
    by_cases hc : o.tickerId = t ∧ o.side = s <;>
      simp only [leavesOn, hc, and_self, ite_true, ite_false] <;> omega

/-- Off the order's ticker nothing moves; on it, `q` leaves the order's side. -/
theorem Releases.split {m m' : HashMap OrderId TrackedOrder} {o : TrackedOrder} {q : Nat}
    (h : Releases m m' o q) :
    (∀ t, t ≠ o.tickerId → ∀ s, m'.sumBy (leavesOn t s) = m.sumBy (leavesOn t s)) ∧
      ∀ s, m'.sumBy (leavesOn o.tickerId s) + (if o.side = s then q else 0) =
        m.sumBy (leavesOn o.tickerId s) := by
  refine ⟨fun t ht s => ?_, fun s => by simpa using h o.tickerId s⟩
  simpa [Ne.symm ht] using h t s

/-! ## One ticker -/

/-- What the engine keeps for ticker `t`, with pending quantities `pend` and position limit `L`:
the position is `t`'s, its pending quantities are `pend`, and with all the pending orders of
either side filled the position stays within `L`. -/
structure Balanced (p : Position) (t : TickerId) (pend : Side → Nat) (L : Int) : Prop where
  tickerId : p.tickerId = t
  openBuy : p.openBuyQty = pend .buy
  openSell : p.openSellQty = pend .sell
  long : p.position + pend .buy ≤ L
  short : -L ≤ p.position - pend .sell

section Balanced

variable {p : Position} {t : TickerId} {pend pend' : Side → Nat} {L : Int} {side : Side}
  {q : Nat}

/-- A position with the same ticker, position and pending quantities is as balanced. -/
theorem Balanced.of_same (h : Balanced p t pend L) {p' : Position}
    (hp : p'.tickerId = p.tickerId ∧ p'.position = p.position ∧ p'.openBuyQty = p.openBuyQty ∧
      p'.openSellQty = p.openSellQty) : Balanced p' t pend L := by
  obtain ⟨h1, h2, h3, h4⟩ := hp
  exact ⟨h1 ▸ h.tickerId, h3 ▸ h.openBuy, h4 ▸ h.openSell, h2 ▸ h.long, h2 ▸ h.short⟩

/-- **A submission the risk check allows keeps the ticker balanced**: the projected position it
bounds is the exposure on the order's side with the order added. -/
theorem Balanced.addOpenOrder (h : Balanced p t pend L) (hL : L ≤ 2 ^ 31 - 1) (hq : q < 2 ^ 32)
    (hrisk : i64Abs (RiskManager.projectedPosition p side q) ≤ L)
    (hpend : ∀ s, pend' s = pend s + if side = s then q else 0) :
    Balanced (p.addOpenOrder side q) t pend' L := by
  obtain ⟨ht, hb, hs, hlong, hshort⟩ := h
  have hb' := hpend .buy
  have hs' := hpend .sell
  cases side <;> simp only [ite_true, reduceCtorEq, ite_false, Nat.add_zero] at hb' hs' <;>
    simp only [RiskManager.projectedPosition, Position.maxLongExposure,
      Position.maxShortExposure, hb, hs] at hrisk
  · have h₁ : i64Wrap (p.position + pend .buy) = p.position + pend .buy :=
      i64Wrap_of_range (by omega) (by omega)
    rw [h₁, i64Wrap_of_range (by omega) (by omega)] at hrisk
    have := (le_of_i64Abs_le (by omega) (by omega) hrisk).2
    refine ⟨by simp [ht], ?_, ?_, ?_, ?_⟩ <;> simp only [Position.addOpenOrder, u32Add, hb, hs] <;>
      dsimp only [Qty] at * <;> omega
  · have h₁ : i64Wrap (p.position - pend .sell) = p.position - pend .sell :=
      i64Wrap_of_range (by omega) (by omega)
    rw [h₁, i64Wrap_of_range (by omega) (by omega)] at hrisk
    have := (le_of_i64Abs_le (by omega) (by omega) hrisk).1
    refine ⟨by simp [ht], ?_, ?_, ?_, ?_⟩ <;> simp only [Position.addOpenOrder, u32Add, hb, hs] <;>
      dsimp only [Qty] at * <;> omega

/-- Taking `q` of the pending quantity of one side out keeps the ticker balanced. -/
theorem Balanced.removeOpenOrder (h : Balanced p t pend L)
    (hpend : ∀ s, pend' s + (if side = s then q else 0) = pend s) :
    Balanced (p.removeOpenOrder side q) t pend' L := by
  obtain ⟨ht, hb, hs, hlong, hshort⟩ := h
  have hb' := hpend .buy
  have hs' := hpend .sell
  cases side <;> simp only [ite_true, reduceCtorEq, ite_false, Nat.add_zero] at hb' hs' <;>
    refine ⟨by simp [ht], ?_, ?_, ?_, ?_⟩ <;> simp only [Position.removeOpenOrder, hb, hs] <;>
      dsimp only [Qty] at * <;> omega

/-- A fill of `q` on one side moves `q` from pending into the position, and keeps the ticker
balanced: the exposure on the fill's side is unchanged, and the other side's moves away from the
limit. -/
theorem Balanced.fill (h : Balanced p t pend L) (hL : L < 2 ^ 63) (price : Price)
    (hpend : ∀ s, pend' s + (if side = s then q else 0) = pend s) :
    Balanced ((p.onFill side q price).removeOpenOrder side q) t pend' L := by
  obtain ⟨ht, hb, hs, hlong, hshort⟩ := h
  have hb' := hpend .buy
  have hs' := hpend .sell
  cases side <;> simp only [ite_true, reduceCtorEq, ite_false, Nat.add_zero] at hb' hs' <;>
    refine ⟨by simp [ht], ?_, ?_, ?_, ?_⟩ <;>
    simp only [Position.removeOpenOrder, Position.onFill_position, Position.onFill_openBuyQty,
      Position.onFill_openSellQty, Position.signedQty, i64Wrap, hb, hs] <;>
    dsimp only [Qty] at * <;> omega

end Balanced

/-! ## The exposure invariant -/

/-- What the engine keeps over a run with configuration `config` and risk manager `rm`: both
stay as they are, and every ticker is balanced within its `max_position`. -/
structure Exposure (config : TradeEngineConfig) (rm : RiskManager) (e : TradeEngine) : Prop where
  config : e.config = config
  riskManager : e.riskManager = rm
  balanced : ∀ t,
    Balanced (e.positionKeeper.positionOf t) t (e.pendingQty t) (rm.getLimits t).maxPosition

/-- What the exposure bound assumes of a response: one that names a pending order carries that
order's ticker, and a fill of it accounts for the order's leaves quantity. -/
def ResponseOk (e : TradeEngine) (r : ClientResponse) : Prop :=
  ∀ o ∈ e.pendingOrders.lookup r.clientOrderId, r.tickerId = o.tickerId ∧
    (r.responseType = some .filled → r.execQty + r.leavesQty = o.leavesQty)

instance (e : TradeEngine) (r : ClientResponse) : Decidable (e.ResponseOk r) :=
  inferInstanceAs (Decidable (∀ o ∈ e.pendingOrders.lookup r.clientOrderId, _))

/-- The calls of the runs the exposure bound is about: no `reset`, and responses as
`ResponseOk` asks. -/
def ExposureOk (e : TradeEngine) (c : EngineCall) : Prop := c ≠ .reset ∧ CallOk ResponseOk e c

section Exposure

variable {config : TradeEngineConfig} {rm : RiskManager} {e e' : TradeEngine}

/-- A step that moves no position, pending quantity or ticker keeps the invariant. -/
theorem Exposure.of_same (h : e.Exposure config rm) (hc : e'.config = e.config)
    (hr : e'.riskManager = e.riskManager) (hm : e'.pendingOrders = e.pendingOrders)
    (hp : ∀ t,
      (e'.positionKeeper.positionOf t).tickerId = (e.positionKeeper.positionOf t).tickerId ∧
      (e'.positionKeeper.positionOf t).position = (e.positionKeeper.positionOf t).position ∧
      (e'.positionKeeper.positionOf t).openBuyQty = (e.positionKeeper.positionOf t).openBuyQty ∧
      (e'.positionKeeper.positionOf t).openSellQty = (e.positionKeeper.positionOf t).openSellQty) :
    e'.Exposure config rm :=
  have hq : e'.pendingQty = e.pendingQty :=
    funext fun t => funext fun s => congrArg (·.sumBy (leavesOn t s)) hm
  ⟨hc.trans h.config, hr.trans h.riskManager, fun t => hq ▸ (h.balanced t).of_same (hp t)⟩

/-- A step that changes one ticker's position by `f`, and no other ticker's position or pending
quantities, keeps the invariant if `f` keeps that ticker balanced. -/
theorem Exposure.update (h : e.Exposure config rm) (hc : e'.config = e.config)
    (hr : e'.riskManager = e.riskManager) (t₀ : TickerId) (f : Position → Position)
    (hpos : ∀ t, e'.positionKeeper.positionOf t =
      if t = t₀ then f (e.positionKeeper.positionOf t₀) else e.positionKeeper.positionOf t)
    (hpend : ∀ t, t ≠ t₀ → ∀ s, e'.pendingQty t s = e.pendingQty t s)
    (h₀ : Balanced (f (e.positionKeeper.positionOf t₀)) t₀ (e'.pendingQty t₀)
      (rm.getLimits t₀).maxPosition) :
    e'.Exposure config rm :=
  ⟨hc.trans h.config, hr.trans h.riskManager, fun t => by
    rw [hpos]
    split_ifs with ht
    · exact ht ▸ h₀
    · rw [show e'.pendingQty t = e.pendingQty t from funext (hpend t ht)]; exact h.balanced t⟩

/-- A step that takes `q` of a pending order `o` out, and changes `o`'s position by `f`, keeps
the invariant if `f` keeps a ticker balanced when `q` leaves `o`'s side. -/
theorem Exposure.release (h : e.Exposure config rm) (hc : e'.config = e.config)
    (hr : e'.riskManager = e.riskManager) {o : TrackedOrder} {q : Nat}
    (hm : Releases e.pendingOrders e'.pendingOrders o q) (f : Position → Position)
    (hpos : ∀ t, e'.positionKeeper.positionOf t =
      if t = o.tickerId then f (e.positionKeeper.positionOf o.tickerId)
      else e.positionKeeper.positionOf t)
    (hf : ∀ pend', (∀ s, pend' s + (if o.side = s then q else 0) = e.pendingQty o.tickerId s) →
      Balanced (f (e.positionKeeper.positionOf o.tickerId)) o.tickerId pend'
        (rm.getLimits o.tickerId).maxPosition) :
    e'.Exposure config rm :=
  h.update hc hr o.tickerId f hpos hm.split.1 (hf _ hm.split.2)

theorem Exposure.new (config : TradeEngineConfig) (rm : RiskManager)
    (hL : ∀ t, 0 ≤ (rm.getLimits t).maxPosition) :
    ({ TradeEngine.new config with riskManager := rm } : TradeEngine).Exposure config rm :=
  ⟨rfl, rfl, fun t => ⟨rfl, rfl, rfl, show (0 : Int) + ((0 : Nat) : Int) ≤ _ by simpa using hL t,
    show _ ≤ (0 : Int) - ((0 : Nat) : Int) by simpa using hL t⟩⟩

variable (hL : ∀ t, 0 ≤ (rm.getLimits t).maxPosition ∧ (rm.getLimits t).maxPosition ≤ 2 ^ 31 - 1)
include hL

/-- **A response keeps the invariant**: a fill of a pending order moves what it executed from
pending into the position, a cancel or rejection takes the order's pending quantity out, and
anything else changes neither. -/
theorem Exposure.onResponse (h : e.Exposure config rm) {r : ClientResponse}
    (hr : e.ResponseOk r) : (e.onResponse r).Exposure config rm := by
  rcases onResponse_cases e r with he | ⟨-, -, -, he⟩ | ⟨o, ho, ⟨hf, hk, hm, -⟩ | ⟨hk, hm, -⟩⟩
  · rwa [he]
  · rw [he]; exact ⟨h.config, h.riskManager, h.balanced⟩
  · obtain ⟨ht, hq⟩ := hr o ho
    refine h.release (by simp) (by simp) (hm ▸ releases_fill ho (hq hf))
      (fun p => (p.onFill o.side r.execQty r.price).removeOpenOrder o.side r.execQty)
      (fun t => ?_) fun pend' hpend =>
        (h.balanced _).fill (by have := hL o.tickerId; omega) r.price hpend
    by_cases h' : t = o.tickerId <;>
      simp [hk, PositionKeeper.positionOf_modifyPosition, PositionKeeper.positionOf_onFill, ht, h']
  · obtain ⟨ht, -⟩ := hr o ho
    refine h.release (by simp) (by simp) (hm ▸ releases_erase ho)
      (fun p => p.removeOpenOrder o.side o.leavesQty) (fun t => ?_)
      fun pend' hpend => (h.balanced _).removeOpenOrder hpend
    rw [hk, ht, PositionKeeper.positionOf_modifyPosition]

variable (hQ : ∀ t, (rm.getLimits t).maxOrderQty < 2 ^ 32)
include hQ

/-- **A submission keeps the invariant**: one the risk check rejects changes nothing, and one it
allows stays within `max_position` on its side because the check bounds exactly that. -/
theorem Exposure.submitOrder (hc : config.enableRiskChecks = true) (h : e.Exposure config rm)
    {t : TickerId} {side : Side} {price : Price} {qty : Qty} {cb : Option OrderId}
    (hid : e.submittedId cb ∉ e.pendingOrders) :
    (e.submitOrder t side price qty cb).1.Exposure config rm := by
  rcases submitOrder_cases e t side price qty cb with ⟨-, he⟩ | ⟨hrisk, hm, hk, -⟩
  · rwa [he]
  rw [checkOrderRisk_of_enabled (h.config ▸ hc), h.riskManager] at hrisk
  obtain ⟨-, hq, hp⟩ := RiskManager.checkOrderWithOpenOrders_allowed hrisk
  rw [(h.balanced t).tickerId] at hq hp
  have hpend : ∀ t' s, (e.submitOrder t side price qty cb).1.pendingQty t' s =
      e.pendingQty t' s + if t = t' ∧ side = s then qty else 0 := fun t' s => by
    rw [pendingQty, hm, sumBy_leavesOn_insert hid]; rfl
  refine h.update (by simp) (by simp) t (·.addOpenOrder side qty)
    (by rw [hk]; exact PositionKeeper.positionOf_modifyPosition _ _ _) (fun t' ht' s => ?_)
    ((h.balanced t).addOpenOrder (hL t).2 (lt_of_le_of_lt hq (hQ t)) hp fun s => by simp [hpend])
  simp [hpend, Ne.symm ht']

omit hL hQ in
/-- A market price, from a trade or a BBO's mid price, moves no position or pending quantity. -/
theorem Exposure.updateMarketPrice (h : e.Exposure config rm) (hc : e'.config = e.config)
    (hr : e'.riskManager = e.riskManager) (hm : e'.pendingOrders = e.pendingOrders) {t : TickerId}
    (hk : ∃ price, e'.positionKeeper = e.positionKeeper ∨
      e'.positionKeeper = e.positionKeeper.updateMarketPrice t price) :
    e'.Exposure config rm := by
  obtain ⟨price, hk | hk⟩ := hk <;> refine h.of_same hc hr hm fun t' => ?_ <;> rw [hk]
  · exact ⟨rfl, rfl, rfl, rfl⟩
  · exact PositionKeeper.positionOf_updateMarketPrice _ _ _ _

/-- Every call a run of the exposure bound makes keeps the invariant. -/
theorem Exposure.call (hc : config.enableRiskChecks = true) (h : e.Exposure config rm)
    {c : EngineCall} (hok : e.ExposureOk c) : (e.call c).Exposure config rm :=
  CallOk.preserve (fun e => e.Exposure config rm)
    (fun _ _ _ _ _ _ h hid => h.submitOrder hL hQ hc hid) (fun _ _ h hr => h.onResponse hL hr)
    (fun e u h =>
      h.updateMarketPrice (by simp) (by simp) (by simp) (onMarketUpdate_positionKeeper e u))
    (fun _ h => ⟨h.config, h.riskManager, h.balanced⟩)
    (fun _ h => ⟨h.config, h.riskManager, h.balanced⟩)
    (fun e t bbo h =>
      h.updateMarketPrice (by simp) (by simp) (by simp) (updateBbo_positionKeeper e t bbo))
    h hok.1 hok.2

end Exposure

/-! ## The open-order count -/

theorem pendingOn_of_insert {e e' : TradeEngine} {id : OrderId} (hid : id ∉ e.pendingOrders)
    {o : TrackedOrder} (hm : e'.pendingOrders = e.pendingOrders.insert id o) (t : TickerId) :
    e'.pendingOn t = e.pendingOn t + if o.tickerId = t then 1 else 0 := by
  rw [pendingOn, hm, AList.sumBy_insert, AList.erase_of_not_mem hid, Nat.add_comm]; rfl

theorem pendingOn_of_erase {e e' : TradeEngine} {id : OrderId} {o : TrackedOrder}
    (ho : e.pendingOrders.lookup id = some o) (hm : e'.pendingOrders = e.pendingOrders.erase id)
    (t : TickerId) : e'.pendingOn t + (if o.tickerId = t then 1 else 0) = e.pendingOn t := by
  rw [pendingOn, pendingOn, hm, AList.sumBy_of_lookup ho, Nat.add_comm]

/-- A partial fill keeps the order pending on its ticker. -/
theorem pendingOn_of_replace {e e' : TradeEngine} {id : OrderId} {o : TrackedOrder}
    (ho : e.pendingOrders.lookup id = some o) {leavesQty : Qty}
    (hm : e'.pendingOrders = e.pendingOrders.insert id { o with leavesQty := leavesQty }) :
    e'.pendingOn = e.pendingOn :=
  funext fun t => by rw [pendingOn, pendingOn, hm, AList.sumBy_insert, AList.sumBy_of_lookup ho]

theorem pendingOrderCount_of_insert {e e' : TradeEngine} {t : TickerId} {n : Nat}
    (hn : e'.openOrderCount = e.openOrderCount.insert t n) (t' : TickerId) :
    e'.pendingOrderCount t' = if t' = t then n else e.pendingOrderCount t' := by
  by_cases h : t' = t
  · subst h; simp [pendingOrderCount, hn, AList.lookup_insert]
  · simp [pendingOrderCount, hn, AList.lookup_insert_ne h, h]

/-- Each ticker of a `tickerMap` has the map's value. -/
theorem getD_lookup_tickerMap {V : Type} (tickers : List TickerId) (v : V) (t : TickerId) :
    ((tickerMap tickers v).lookup t).getD v = v := by
  have : ∀ (m : HashMap TickerId V), (∀ t, (m.lookup t).getD v = v) →
      ((tickers.foldl (fun m t => m.insert t v) m).lookup t).getD v = v := by
    induction tickers with
    | nil => exact fun m hm => hm t
    | cons t' ts ih =>
      refine fun m hm => ih _ fun t'' => ?_
      by_cases h : t'' = t'
      · subst h; simp [AList.lookup_insert]
      · simp [AList.lookup_insert_ne h, hm]
  exact this ∅ fun _ => rfl

/-- What the open-order count assumes of a response: one that names a pending order carries that
order's ticker, and a `Filled` with nothing left names a pending order. -/
def EndsPending (e : TradeEngine) (r : ClientResponse) : Prop :=
  (∀ o ∈ e.pendingOrders.lookup r.clientOrderId, r.tickerId = o.tickerId) ∧
    (r.responseType = some .filled → r.leavesQty = 0 → r.clientOrderId ∈ e.pendingOrders)

/-- What the engine keeps over a run with configuration `config` and risk manager `rm`: both stay
as they are, positions stay under their own tickers, each ticker's count is its number of pending
orders, and that number is within `max_open_orders`. -/
structure Counted (config : TradeEngineConfig) (rm : RiskManager) (e : TradeEngine) : Prop where
  config : e.config = config
  riskManager : e.riskManager = rm
  keyed : e.positionKeeper.Keyed
  count : ∀ t, e.pendingOrderCount t = e.pendingOn t
  bound : ∀ t, e.pendingOn t ≤ (rm.getLimits t).maxOpenOrders

section Counted

variable {config : TradeEngineConfig} {rm : RiskManager} {e e' : TradeEngine}

/-- A step that leaves the number of pending orders of each ticker and the counts alone keeps the
invariant. -/
theorem Counted.of_same (h : e.Counted config rm) (hc : e'.config = e.config)
    (hr : e'.riskManager = e.riskManager) (hk : e'.positionKeeper.Keyed)
    (hon : e'.pendingOn = e.pendingOn) (hn : e'.openOrderCount = e.openOrderCount) :
    e'.Counted config rm :=
  have hcount : e'.pendingOrderCount = e.pendingOrderCount :=
    funext fun t => by rw [pendingOrderCount, pendingOrderCount, hn]
  ⟨hc.trans h.config, hr.trans h.riskManager, hk, hon ▸ hcount ▸ h.count, hon ▸ h.bound⟩

/-- A step that ends the pending order `o` and lowers its ticker's count keeps the invariant. -/
theorem Counted.release (h : e.Counted config rm) (hc : e'.config = e.config)
    (hr : e'.riskManager = e.riskManager) (hk : e'.positionKeeper.Keyed) {id : OrderId}
    {o : TrackedOrder} (ho : e.pendingOrders.lookup id = some o)
    (hm : e'.pendingOrders = e.pendingOrders.erase id)
    (hn : e'.openOrderCount = (e.decrementCount o.tickerId).openOrderCount) :
    e'.Counted config rm := by
  rw [decrementCount_openOrderCount] at hn
  refine ⟨hc.trans h.config, hr.trans h.riskManager, hk, fun t => ?_, fun t => ?_⟩ <;>
    have hon := pendingOn_of_erase ho hm t
  · have := h.count t
    rw [pendingOrderCount_of_insert hn]
    by_cases ht : t = o.tickerId
    · subst ht; simp only [if_true] at hon ⊢; omega
    · simp only [ht, Ne.symm ht, if_false] at hon ⊢; omega
  · exact (Nat.le_add_right _ _).trans (hon ▸ h.bound t)

variable (hM : ∀ t, (rm.getLimits t).maxOpenOrders < 2 ^ 32)
include hM

/-- **A submission keeps the count**: the risk check lets it through only below
`max_open_orders`, so the count goes up by one without wrapping, as the pending orders do. -/
theorem Counted.submitOrder (hc : config.enableRiskChecks = true) (h : e.Counted config rm)
    {t : TickerId} {side : Side} {price : Price} {qty : Qty} {cb : Option OrderId}
    (hid : e.submittedId cb ∉ e.pendingOrders) :
    (e.submitOrder t side price qty cb).1.Counted config rm := by
  rcases submitOrder_cases e t side price qty cb with ⟨-, he⟩ | ⟨hrisk, hm, hk, hn⟩
  · rwa [he]
  rw [checkOrderRisk_of_enabled (h.config ▸ hc), h.riskManager] at hrisk
  obtain ⟨hlt, -, -⟩ := RiskManager.checkOrderWithOpenOrders_allowed hrisk
  rw [h.keyed t, h.count t] at hlt
  have hmax := hM t
  refine ⟨by simp [h.config], by simp [h.riskManager],
    hk ▸ h.keyed.modifyPosition t fun p => Position.addOpenOrder_tickerId p side qty,
    fun t' => ?_, fun t' => ?_⟩ <;> rw [pendingOn_of_insert hid hm t']
  · have := h.count t'
    rw [pendingOrderCount_of_insert hn, u32Add, h.count t]
    by_cases ht : t' = t
    · subst ht; simp only [if_true]; omega
    · simp only [ht, Ne.symm ht, if_false]; omega
  · have := h.bound t'
    by_cases ht : t' = t
    · subst ht; simp only [if_true]; omega
    · simp only [Ne.symm ht, if_false]; omega

omit hM in
/-- **A response keeps the count**, when a `Filled` with nothing left names a pending order: an
order that ends leaves the pending orders and its ticker's count together. -/
theorem Counted.onResponse (h : e.Counted config rm) {r : ClientResponse}
    (hr : e.EndsPending r) : (e.onResponse r).Counted config rm := by
  rcases onResponse_cases e r with he | ⟨hf, h0, hn, -⟩ | ⟨o, ho, ⟨-, hk, hm, hn⟩ | ⟨hk, hm, hn⟩⟩
  · rwa [he]
  · exact absurd (hr.2 hf h0) hn
  · have ht := hr.1 o ho
    have hkeyed : (e.onResponse r).positionKeeper.Keyed :=
      hk ▸ (h.keyed.onFill _ _ _ _).modifyPosition _ fun p =>
        Position.removeOpenOrder_tickerId p _ _
    split_ifs at hm hn with h0
    · exact h.release (by simp) (by simp) hkeyed ho hm (ht ▸ hn)
    · exact h.of_same (by simp) (by simp) hkeyed (pendingOn_of_replace ho hm) hn
  · have ht := hr.1 o ho
    exact h.release (by simp) (by simp)
      (hk ▸ h.keyed.modifyPosition _ fun p => Position.removeOpenOrder_tickerId p _ _) ho hm
      (ht ▸ hn)

omit hM in
/-- A market price moves no pending order, count or ticker. -/
theorem Counted.updateMarketPrice (h : e.Counted config rm) (hc : e'.config = e.config)
    (hr : e'.riskManager = e.riskManager) (hm : e'.pendingOrders = e.pendingOrders)
    (hn : e'.openOrderCount = e.openOrderCount) {t : TickerId}
    (hk : ∃ price, e'.positionKeeper = e.positionKeeper ∨
      e'.positionKeeper = e.positionKeeper.updateMarketPrice t price) :
    e'.Counted config rm := by
  obtain ⟨price, hk⟩ := hk
  refine h.of_same hc hr ?_ (funext fun t => by rw [pendingOn, pendingOn, hm]) hn
  rcases hk with hk | hk <;> rw [hk]
  exacts [h.keyed, h.keyed.updateMarketPrice t price]

omit hM in
theorem Counted.new (config : TradeEngineConfig) (rm : RiskManager) :
    ({ TradeEngine.new config with riskManager := rm } : TradeEngine).Counted config rm :=
  ⟨rfl, rfl, fun _ => rfl, fun t => getD_lookup_tickerMap _ _ t, fun _ => Nat.zero_le _⟩

omit hM in
/-- `reset` drops every pending order and sets every count to zero. -/
theorem Counted.reset (h : e.Counted config rm) : e.reset.Counted config rm :=
  ⟨h.config, h.riskManager, h.keyed, fun t => getD_lookup_tickerMap _ _ t, fun _ => Nat.zero_le _⟩

/-- Every call made as `CallOk EndsPending` asks keeps the invariant, `reset` included. -/
theorem Counted.call (hc : config.enableRiskChecks = true) (h : e.Counted config rm)
    {c : EngineCall} (hok : CallOk EndsPending e c) : (e.call c).Counted config rm := by
  by_cases hr : c = .reset
  · subst hr; exact h.reset
  exact CallOk.preserve (fun e => e.Counted config rm)
    (fun _ _ _ _ _ _ h hid => h.submitOrder hM hc hid) (fun _ _ h hr => h.onResponse hr)
    (fun e u h => h.updateMarketPrice (by simp) (by simp) (by simp) (by simp)
      (onMarketUpdate_positionKeeper e u))
    (fun _ h => ⟨h.config, h.riskManager, h.keyed, h.count, h.bound⟩)
    (fun _ h => ⟨h.config, h.riskManager, h.keyed, h.count, h.bound⟩)
    (fun e t bbo h => h.updateMarketPrice (by simp) (by simp) (by simp) (by simp)
      (updateBbo_positionKeeper e t bbo)) h hr hok

end Counted

section Reachable

variable {config : TradeEngineConfig} {rm : RiskManager}

/-- **The exposure bound.** With the risk checks on and limits fixed, `0 ≤ max_position ≤ 2^31 - 1`
and `max_order_qty` a `u32`, in every state a run reaches, each ticker's position has as
`open_buy_qty` and `open_sell_qty` the leaves quantities of its pending buys and sells, its
`max_long_exposure()` is at most `max_position`, and its `max_short_exposure()` at least
`-max_position`. -/
theorem Reachable.exposure (hc : config.enableRiskChecks = true)
    (hL : ∀ t, 0 ≤ (rm.getLimits t).maxPosition ∧ (rm.getLimits t).maxPosition ≤ 2 ^ 31 - 1)
    (hQ : ∀ t, (rm.getLimits t).maxOrderQty < 2 ^ 32) {e : TradeEngine}
    (h : Reachable ExposureOk config rm e) (t : TickerId) :
    (e.positionKeeper.positionOf t).openBuyQty = e.pendingQty t .buy ∧
      (e.positionKeeper.positionOf t).openSellQty = e.pendingQty t .sell ∧
      (e.positionKeeper.positionOf t).maxLongExposure ≤ (rm.getLimits t).maxPosition ∧
      -(rm.getLimits t).maxPosition ≤ (e.positionKeeper.positionOf t).maxShortExposure := by
  have hinv : e.Exposure config rm := by
    induction h with
    | new => exact .new config rm fun t => (hL t).1
    | call c _ hok ih => exact ih.call hL hQ hc hok
  obtain ⟨-, hb, hs, hlong, hshort⟩ := hinv.balanced t
  have := hL t
  refine ⟨hb, hs, ?_, ?_⟩ <;>
    simp only [Position.maxLongExposure, Position.maxShortExposure, i64Wrap, hb, hs] <;> omega

end Reachable

/-- An engine with the default limits after one bid of 10 at 100. -/
def oneBid : TradeEngine :=
  ((TradeEngine.new ⟨1, [1], true, 100⟩).submitOrder 1 .buy 100 10 (some 1)).1

theorem exposure_one_bid :
    (oneBid.positionKeeper.positionOf 1).openBuyQty = oneBid.pendingQty 1 .buy ∧
      (oneBid.positionKeeper.positionOf 1).openSellQty = oneBid.pendingQty 1 .sell ∧
      (oneBid.positionKeeper.positionOf 1).maxLongExposure ≤
        (RiskManager.new.getLimits 1).maxPosition ∧
      -(RiskManager.new.getLimits 1).maxPosition ≤
        (oneBid.positionKeeper.positionOf 1).maxShortExposure :=
  @Reachable.exposure ⟨1, [1], true, 100⟩ .new rfl
    (fun t => by rw [RiskManager.getLimits_new]; decide)
    (fun t => by rw [RiskManager.getLimits_new]; decide)
    oneBid (.call (.submitOrder 1 .buy 100 10 (some 1)) .new ⟨nofun, by simp only [CallOk]; decide⟩)
    1

/-- **The open-order count follows the pending orders** when every `Filled` with nothing left
names a pending order, and every response naming a pending order carries its ticker. In every
state such a run reaches, `reset` included, each ticker's `pending_order_count` is its number of
pending orders, and with the risk checks on and `max_open_orders` a `u32`, that number is at
most `max_open_orders`. -/
theorem Reachable.counts {config : TradeEngineConfig} {rm : RiskManager}
    (hc : config.enableRiskChecks = true) (hM : ∀ t, (rm.getLimits t).maxOpenOrders < 2 ^ 32)
    {e : TradeEngine} (h : Reachable (CallOk EndsPending) config rm e) (t : TickerId) :
    e.pendingOrderCount t = e.pendingOn t ∧ e.pendingOn t ≤ (rm.getLimits t).maxOpenOrders := by
  have hinv : e.Counted config rm := by
    induction h with
    | new => exact .new config rm
    | call c _ hok ih => exact ih.call hM hc hok
  exact ⟨hinv.count t, hinv.bound t⟩

/-- The engine of `oneBid` after the order fills completely. -/
def oneBidFilled : TradeEngine := oneBid.onResponse (ClientResponse.new .filled 1 1 1 7 1 100 10 0)

theorem counts_one_bid_filled :
    oneBidFilled.pendingOrderCount 1 = oneBidFilled.pendingOn 1 ∧
      oneBidFilled.pendingOn 1 ≤ (RiskManager.new.getLimits 1).maxOpenOrders :=
  @Reachable.counts ⟨1, [1], true, 100⟩ .new rfl
    (fun t => by rw [RiskManager.getLimits_new]; decide)
    oneBidFilled
    (.call (.onResponse (ClientResponse.new .filled 1 1 1 7 1 100 10 0))
      (.call (.submitOrder 1 .buy 100 10 (some 1)) .new (by unfold CallOk; decide))
      (by unfold CallOk EndsPending; decide))
    1

end TradeEngine

end LowLatencyTrading
