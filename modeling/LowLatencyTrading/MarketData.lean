import LowLatencyTrading.Protocol

/-!
# The market-data publisher (`exchange/src/market_data.rs`)

`publish` multicasts each update and, with snapshots enabled, first folds it into a per-ticker
guess at the best bid and offer (`TickerState`). `publish_snapshot` and
`publish_ticker_snapshot` send that guess back out as `Snapshot` updates, one per side whose
price and quantity are positive. The socket is left out: a send is assumed to go through, and
what the publisher sends is the list each call returns.

The guess is only a guess: an `Add` at the best price overwrites the quantity there with the
new order's, and a `Cancel` at the best price takes its quantity off and drops the price when
nothing is left, without looking for the next level. What it keeps is a bound. Against any
table `lq` of quantities resting at each ticker, side and price, `Sound` says that a positive
quote is backed by at least its quantity; an `Add` that adds its quantity to `lq` and a
`Cancel` that takes it off keep that (`TickerState.Sound.apply_add`,
`TickerState.Sound.apply_cancel`), and every snapshot of a sound publisher is backed
(`MarketDataPublisher.Sound.publish`). The exchange's main loop supplies the table
(`Exchange`).
-/

namespace LowLatencyTrading

/-- `TickerState`: the best bid and offer seen for one ticker, and the sequence number of the
last update folded in. -/
structure TickerState where
  bidPrice : Price
  bidQty : Qty
  askPrice : Price
  askQty : Qty
  lastSeq : Nat
  deriving DecidableEq, Repr

/-- `TickerState::default()`. -/
instance : Inhabited TickerState := ⟨⟨0, 0, 0, 0, 0⟩⟩

namespace TickerState

/-- The `match update_type` of `update_ticker_state`. -/
def apply (state : TickerState) (update : MarketUpdate) : TickerState :=
  let side := update.side
  let price := update.price
  let qty := update.qty
  match MarketUpdateType.fromU8 update.msgType with
  | some .add | some .modify | some .snapshot =>
    if side = Side.buy.asSign then
      if price > state.bidPrice ∨ state.bidPrice = 0 then
        { state with bidPrice := price, bidQty := qty }
      else if price = state.bidPrice then { state with bidQty := qty }
      else state
    else if side = Side.sell.asSign then
      if state.askPrice = 0 ∨ price < state.askPrice then
        { state with askPrice := price, askQty := qty }
      else if price = state.askPrice then { state with askQty := qty }
      else state
    else state
  | some .cancel =>
    if side = Side.buy.asSign ∧ price = state.bidPrice then
      let bidQty := state.bidQty - qty
      { state with bidQty := bidQty, bidPrice := if bidQty = 0 then 0 else state.bidPrice }
    else if side = Side.sell.asSign ∧ price = state.askPrice then
      let askQty := state.askQty - qty
      { state with askQty := askQty, askPrice := if askQty = 0 then 0 else state.askPrice }
    else state
  | some .trade =>
    if side = Side.buy.asSign ∧ price = state.askPrice then
      { state with askQty := state.askQty - qty }
    else if side = Side.sell.asSign ∧ price = state.bidPrice then
      { state with bidQty := state.bidQty - qty }
    else state
  | some .clear => default
  | none => state

end TickerState

/-- The fields of `MarketDataPublisherConfig` that decide what is published; the address, port,
interface and TTL only reach the socket. -/
structure MarketDataPublisherConfig where
  enableSnapshots : Bool
  snapshotInterval : Nat

/-- `MarketDataPublisher`, without its socket and its byte counters. -/
structure MarketDataPublisher where
  config : MarketDataPublisherConfig
  tickerState : HashMap TickerId TickerState
  sequence : Nat
  updatesSinceSnapshot : Nat

namespace MarketDataPublisher

/-- `MarketDataPublisher::new`. -/
def new (config : MarketDataPublisherConfig) : MarketDataPublisher := ⟨config, ∅, 0, 0⟩

/-- `update_ticker_state`: `entry(ticker_id).or_default()`, the update folded in, and
`last_seq`. -/
def updateTickerState (p : MarketDataPublisher) (tickerId : TickerId) (update : MarketUpdate) :
    MarketDataPublisher :=
  let state := (p.tickerState.lookup tickerId).getD default
  { p with tickerState :=
      p.tickerState.insert tickerId { state.apply update with lastSeq := p.sequence } }

/-- The snapshot updates of one ticker's state: its bid, then its ask, each when its price and
quantity are positive. -/
def stateSnapshots (tickerId : TickerId) (state : TickerState) (sequence : Nat) :
    List MarketUpdate :=
  (if state.bidPrice > 0 ∧ state.bidQty > 0 then
    [MarketUpdate.new .snapshot tickerId 0 Side.buy.asSign state.bidPrice state.bidQty sequence]
  else []) ++
  (if state.askPrice > 0 ∧ state.askQty > 0 then
    [MarketUpdate.new .snapshot tickerId 0 Side.sell.asSign state.askPrice state.askQty sequence]
  else [])

/-- `publish_snapshot`: the snapshots of every ticker with a state, in the map's order. -/
def publishSnapshot (p : MarketDataPublisher) : MarketDataPublisher × List MarketUpdate :=
  ({ p with updatesSinceSnapshot := 0 },
    p.tickerState.keys.flatMap fun t =>
      stateSnapshots t ((p.tickerState.lookup t).getD default) p.sequence)

/-- `publish_ticker_snapshot`. -/
def publishTickerSnapshot (p : MarketDataPublisher) (tickerId : TickerId) : List MarketUpdate :=
  match p.tickerState.lookup tickerId with
  | some state => stateSnapshots tickerId state p.sequence
  | none => []

/-- `publish`: the update, then a snapshot of every ticker once `snapshot_interval` updates have
gone out since the last one. -/
def publish (p : MarketDataPublisher) (update : MarketUpdate) :
    MarketDataPublisher × List MarketUpdate :=
  let p := if p.config.enableSnapshots then p.updateTickerState update.tickerId update else p
  let p := { p with sequence := p.sequence + 1, updatesSinceSnapshot := p.updatesSinceSnapshot + 1 }
  if p.config.enableSnapshots ∧ p.config.snapshotInterval > 0 ∧
      p.updatesSinceSnapshot ≥ p.config.snapshotInterval then
    let snapshot := p.publishSnapshot
    (snapshot.1, update :: snapshot.2)
  else (p, [update])

/-- `publish_batch`: `publish` on each update in turn. -/
def publishBatch (p : MarketDataPublisher) : List MarketUpdate →
    MarketDataPublisher × List MarketUpdate
  | [] => (p, [])
  | u :: us =>
    let first := p.publish u
    let rest := first.1.publishBatch us
    (rest.1, first.2 ++ rest.2)

/-- `publish_clear`: the ticker's state is dropped and a `Clear` goes out. -/
def publishClear (p : MarketDataPublisher) (tickerId : TickerId) :
    MarketDataPublisher × List MarketUpdate :=
  ({ p with tickerState := p.tickerState.erase tickerId, sequence := p.sequence + 1 },
    [MarketUpdate.new .clear tickerId 0 0 0 0 p.sequence])

/-- `register_ticker`: `entry(ticker_id).or_default()`. -/
def registerTicker (p : MarketDataPublisher) (tickerId : TickerId) : MarketDataPublisher :=
  if tickerId ∈ p.tickerState then p
  else { p with tickerState := p.tickerState.insert tickerId default }

@[simp] theorem publishBatch_singleton (p : MarketDataPublisher) (u : MarketUpdate) :
    p.publishBatch [u] = p.publish u := by
  simp [publishBatch]

@[simp] theorem publish_config (p : MarketDataPublisher) (u : MarketUpdate) :
    (p.publish u).1.config = p.config := by
  unfold publish updateTickerState publishSnapshot
  dsimp only
  split_ifs <;> rfl

@[simp] theorem publishSnapshot_config (p : MarketDataPublisher) :
    p.publishSnapshot.1.config = p.config := rfl

@[simp] theorem registerTicker_config (p : MarketDataPublisher) (t : TickerId) :
    (p.registerTicker t).config = p.config := by
  unfold registerTicker; split <;> rfl

end MarketDataPublisher

/-! ## Backed quotes -/

/-- A quote is backed by `lq`, the quantity resting at each price: at a positive price with a
positive quantity, at least that quantity rests at the price. -/
def QuoteSound (price : Price) (qty : Nat) (lq : Price → Nat) : Prop :=
  0 < price → 0 < qty → qty ≤ lq price

namespace QuoteSound

variable {price : Price} {qty : Nat} {lq lq' : Price → Nat}

theorem of_le (h : qty ≤ lq' price) : QuoteSound price qty lq' := fun _ _ => h

theorem mono (h : QuoteSound price qty lq) (hle : lq price ≤ lq' price) :
    QuoteSound price qty lq' :=
  fun hp hq => (h hp hq).trans hle

/-- Taking `c` off a backed quote and off the quantity at its price leaves it backed, and a
quote with nothing left is dropped. -/
theorem reduce (h : QuoteSound price qty lq) {c : Nat} (hlq : lq' price + c = lq price) :
    QuoteSound (if qty - c = 0 then 0 else price) (qty - c) lq' := by
  intro hp hq
  have hne : qty - c ≠ 0 := by omega
  rw [if_neg hne] at hp ⊢
  have := h hp (by omega)
  omega

end QuoteSound

namespace TickerState

/-- Both quotes of `state` are backed by `lq`. -/
def Sound (state : TickerState) (lq : Side → Price → Nat) : Prop :=
  QuoteSound state.bidPrice state.bidQty (lq .buy) ∧
    QuoteSound state.askPrice state.askQty (lq .sell)

theorem default_sound (lq : Side → Price → Nat) : (default : TickerState).Sound lq :=
  ⟨fun h => absurd h (lt_irrefl 0), fun h => absurd h (lt_irrefl 0)⟩

variable {state : TickerState} {lq lq' : Side → Price → Nat} {u : MarketUpdate}

theorem Sound.mono (h : state.Sound lq) (hle : ∀ s p, lq s p ≤ lq' s p) : state.Sound lq' :=
  ⟨h.1.mono (hle _ _), h.2.mono (hle _ _)⟩

/-- **An `Add` keeps the quotes backed** when the order's quantity joins the table at its side
and price. -/
theorem Sound.apply_add (h : state.Sound lq) (hu : u.msgType = MarketUpdateType.add.toU8)
    (hle : ∀ s p, lq s p ≤ lq' s p) (hnew : ∀ s : Side, u.side = s.asSign → u.qty ≤ lq' s u.price) :
    (state.apply u).Sound lq' := by
  simp only [apply, hu, MarketUpdateType.fromU8_toU8]
  split_ifs with hb hbp hbe hs hsp hse
  · exact ⟨.of_le (hnew .buy hb), h.2.mono (hle _ _)⟩
  · exact ⟨.of_le (hbe ▸ hnew .buy hb), h.2.mono (hle _ _)⟩
  · exact h.mono hle
  · exact ⟨h.1.mono (hle _ _), .of_le (hnew .sell hs)⟩
  · exact ⟨h.1.mono (hle _ _), .of_le (hse ▸ hnew .sell hs)⟩
  · exact h.mono hle
  · exact h.mono hle

/-- **A `Cancel` keeps the quotes backed** when the order's quantity leaves the table at its
side and price. -/
theorem Sound.apply_cancel (h : state.Sound lq) (hu : u.msgType = MarketUpdateType.cancel.toU8)
    (hlq : ∀ s p, lq' s p + (if u.side = s.asSign ∧ u.price = p then u.qty else 0) = lq s p) :
    (state.apply u).Sound lq' := by
  have heq : ∀ s p, ¬(u.side = s.asSign ∧ u.price = p) → lq s p ≤ lq' s p := fun s p hn => by
    have := hlq s p; rw [if_neg hn] at this; omega
  simp only [apply, hu, MarketUpdateType.fromU8_toU8]
  by_cases hb : u.side = Side.buy.asSign ∧ u.price = state.bidPrice
  · have hq := hlq .buy state.bidPrice
    rw [if_pos hb] at hq ⊢
    exact ⟨h.1.reduce hq, h.2.mono (heq _ _ fun hn => by simp [hb.1] at hn)⟩
  rw [if_neg hb]
  by_cases hs : u.side = Side.sell.asSign ∧ u.price = state.askPrice
  · have hq := hlq .sell state.askPrice
    rw [if_pos hs] at hq ⊢
    exact ⟨h.1.mono (heq _ _ fun hn => by simp [hs.1] at hn), h.2.reduce hq⟩
  rw [if_neg hs]
  exact ⟨h.1.mono (heq _ _ hb), h.2.mono (heq _ _ hs)⟩

end TickerState

namespace MarketDataPublisher

/-- Every ticker state of `p` is backed by `lq`, the quantity resting at each ticker, side and
price. -/
def Sound (p : MarketDataPublisher) (lq : TickerId → Side → Price → Nat) : Prop :=
  ∀ t state, p.tickerState.lookup t = some state → state.Sound (lq t)

/-- A snapshot of a positive quantity, backed by `lq` at its ticker, side and price. -/
def SnapshotSound (lq : TickerId → Side → Price → Nat) (u : MarketUpdate) : Prop :=
  ∃ s : Side, u.side = s.asSign ∧ 0 < u.qty ∧ u.qty ≤ lq u.tickerId s u.price

variable {p : MarketDataPublisher} {lq lq' : TickerId → Side → Price → Nat}

theorem new_sound (config : MarketDataPublisherConfig) (lq : TickerId → Side → Price → Nat) :
    (new config).Sound lq :=
  fun t state hs => by simp [new, AList.lookup_empty] at hs

theorem Sound.of_tickerState {q : MarketDataPublisher} (h : p.Sound lq)
    (ht : q.tickerState = p.tickerState) : q.Sound lq :=
  fun t state hs => h t state (ht ▸ hs)

theorem Sound.getD (h : p.Sound lq) (t : TickerId) :
    ((p.tickerState.lookup t).getD default).Sound (lq t) := by
  cases ht : p.tickerState.lookup t with
  | none => exact TickerState.default_sound _
  | some state => exact h t state ht

theorem stateSnapshots_sound {t : TickerId} {state : TickerState} (h : state.Sound (lq t))
    (n : Nat) : ∀ u ∈ stateSnapshots t state n, SnapshotSound lq u := by
  intro u hu
  simp only [stateSnapshots, List.mem_append] at hu
  rcases hu with hu | hu
  · split_ifs at hu with hq
    · rw [List.mem_singleton.mp hu]; exact ⟨.buy, rfl, hq.2, h.1 hq.1 hq.2⟩
    · exact absurd hu (List.not_mem_nil _)
  · split_ifs at hu with hq
    · rw [List.mem_singleton.mp hu]; exact ⟨.sell, rfl, hq.2, h.2 hq.1 hq.2⟩
    · exact absurd hu (List.not_mem_nil _)

theorem Sound.publishSnapshot (h : p.Sound lq) :
    p.publishSnapshot.1.Sound lq ∧ ∀ u ∈ p.publishSnapshot.2, SnapshotSound lq u := by
  refine ⟨h, fun u hu => ?_⟩
  obtain ⟨t, -, hu⟩ := List.mem_flatMap.mp hu
  exact stateSnapshots_sound (h.getD t) _ u hu

theorem Sound.publishTickerSnapshot (h : p.Sound lq) (t : TickerId) :
    ∀ u ∈ p.publishTickerSnapshot t, SnapshotSound lq u := by
  unfold MarketDataPublisher.publishTickerSnapshot
  split
  · exact stateSnapshots_sound (h t _ ‹_›) _
  · exact fun _ hu => absurd hu (List.not_mem_nil _)

theorem Sound.registerTicker (h : p.Sound lq) (t : TickerId) : (p.registerTicker t).Sound lq := by
  unfold MarketDataPublisher.registerTicker
  split
  · exact h
  · intro t' state hs
    by_cases ht : t' = t
    · subst ht
      simp only [AList.lookup_insert, Option.some.injEq] at hs
      exact hs ▸ TickerState.default_sound _
    · rw [AList.lookup_insert_ne ht] at hs; exact h t' state hs

/-- **`publish` keeps the states backed, and every snapshot it sends is backed**, when the update
moves the table `lq` to `lq'` at its own ticker only, in a way that keeps a ticker state
backed. -/
theorem Sound.publish (h : p.Sound lq) (lq' : TickerId → Side → Price → Nat)
    (he : p.config.enableSnapshots = true)
    (hu : u.msgType ≠ MarketUpdateType.snapshot.toU8)
    (happly : ∀ state : TickerState, state.Sound (lq u.tickerId) →
      (state.apply u).Sound (lq' u.tickerId))
    (hother : ∀ t, t ≠ u.tickerId → lq' t = lq t) :
    (p.publish u).1.Sound lq' ∧
      ∀ v ∈ (p.publish u).2, v.msgType = MarketUpdateType.snapshot.toU8 → SnapshotSound lq' v := by
  have hs : (p.updateTickerState u.tickerId u).Sound lq' := by
    intro t state hst
    simp only [updateTickerState] at hst
    by_cases ht : t = u.tickerId
    · subst ht
      simp only [AList.lookup_insert, Option.some.injEq] at hst
      subst hst
      exact happly _ (h.getD _)
    · rw [AList.lookup_insert_ne ht] at hst
      exact hother t ht ▸ h t state hst
  simp only [MarketDataPublisher.publish, he, if_true]
  split_ifs
  · refine ⟨(Sound.publishSnapshot (hs.of_tickerState rfl)).1, fun v hv hvs => ?_⟩
    rcases List.mem_cons.mp hv with rfl | hv
    · exact absurd hvs hu
    · exact (Sound.publishSnapshot (hs.of_tickerState (by rfl))).2 v hv
  · exact ⟨hs, fun v hv hvs => by rw [List.mem_singleton.mp hv] at hvs; exact absurd hvs hu⟩

end MarketDataPublisher

end LowLatencyTrading
