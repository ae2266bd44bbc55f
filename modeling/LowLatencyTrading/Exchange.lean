import LowLatencyTrading.MatchingEngine
import LowLatencyTrading.MarketData

/-!
# The exchange's main loop (`exchange/src/main.rs`)

The engine gets `add_ticker` for each of the exchange's tickers, and the publisher is built with
snapshots on and registers the same tickers. Each request the order server hands over goes
through `process_request`, and each update it returns through `publish`; at any point a
snapshot of every ticker, or of one, may go out. The responses to clients and the statistics
play no part here.

The publisher's best bid and offer are a guess, but a sound one: every `Snapshot` the loop sends
names a level of the book as it stands when the snapshot goes out, with at least the snapshot's
quantity resting there (`Reachable.snapshots`). The engine's side of this is the conservation
law `StepOk.levels`: a request moves the quantity resting at each ticker, side and price by its
`Add` quantity and back by its `Cancel` quantity, and by nothing else.
-/

namespace LowLatencyTrading

/-- The engine and the market-data publisher of the main loop. -/
structure Exchange where
  engine : MatchingEngine
  publisher : MarketDataPublisher

/-- What the main loop does next: process one request, or send a snapshot. -/
inductive ExchangeEvent where
  | request (r : ClientRequest)
  | snapshot
  | tickerSnapshot (tickerId : TickerId)

namespace Exchange

/-- The engine and the publisher as `main` sets them up, with snapshots enabled. -/
def start (tickers : List TickerId) (snapshotInterval : Nat) : Exchange :=
  ⟨MatchingEngine.start tickers,
    tickers.foldl MarketDataPublisher.registerTicker (.new ⟨true, snapshotInterval⟩)⟩

/-- One event, with the updates it sends. A request's updates are published in order. -/
def step (x : Exchange) : ExchangeEvent → Exchange × List MarketUpdate
  | .request r =>
    let done := x.engine.processRequest r
    let published := x.publisher.publishBatch done.2.2
    (⟨done.1, published.1⟩, published.2)
  | .snapshot =>
    let snapshot := x.publisher.publishSnapshot
    (⟨x.engine, snapshot.1⟩, snapshot.2)
  | .tickerSnapshot t => (x, x.publisher.publishTickerSnapshot t)

/-- The states the main loop reaches. -/
inductive Reachable : Exchange → Prop
  | start (tickers : List TickerId) (snapshotInterval : Nat) :
      Reachable (start tickers snapshotInterval)
  | step {x : Exchange} (ev : ExchangeEvent) : Reachable x → Reachable (x.step ev).1

/-- The engine keeps its invariant, snapshots stay on, and every ticker state of the publisher
is backed by the quantities resting in the books. -/
structure Inv (x : Exchange) : Prop where
  engine : x.engine.Inv
  enabled : x.publisher.config.enableSnapshots = true
  sound : x.publisher.Sound x.engine.levelQty

theorem foldl_registerTicker (ts : List TickerId) {p : MarketDataPublisher}
    {lq : TickerId → Side → Price → Nat} (h : p.Sound lq) :
    (ts.foldl MarketDataPublisher.registerTicker p).config = p.config ∧
      (ts.foldl MarketDataPublisher.registerTicker p).Sound lq := by
  induction ts generalizing p with
  | nil => exact ⟨rfl, h⟩
  | cons t ts ih =>
    obtain ⟨hc, hs⟩ := ih (h.registerTicker t)
    exact ⟨hc.trans (MarketDataPublisher.registerTicker_config p t), hs⟩

theorem Inv.start (tickers : List TickerId) (snapshotInterval : Nat) :
    (start tickers snapshotInterval).Inv :=
  have h := foldl_registerTicker tickers
    (MarketDataPublisher.new_sound ⟨true, snapshotInterval⟩ (MatchingEngine.start tickers).levelQty)
  ⟨(MatchingEngine.Consistent.start tickers).inv, congrArg (·.enableSnapshots) h.1, h.2⟩

/-- The table after a request that sends no delta, or one `Add` or `Cancel` `u`: at `u`'s ticker
the order's quantity joins or leaves, and elsewhere nothing moves. -/
theorem publish_request {e e' : MatchingEngine} {out : ClientResponse × List MarketUpdate}
    (hs : MatchingEngine.StepOk e e' out) {p : MarketDataPublisher} (h : p.Sound e.levelQty)
    (he : p.config.enableSnapshots = true) :
    (p.publishBatch out.2).1.Sound e'.levelQty ∧ (p.publishBatch out.2).1.config = p.config ∧
      ∀ v ∈ (p.publishBatch out.2).2, v.msgType = MarketUpdateType.snapshot.toU8 →
        MarketDataPublisher.SnapshotSound e'.levelQty v := by
  have hl := hs.levels
  rcases hs.shape with ⟨-, u, hu, hadd⟩ | ⟨-, u, hu, hcan⟩ | ⟨-, -, hu⟩
  · rw [hu] at hl ⊢
    have hq : ∀ t s p, e'.levelQty t s p =
        e.levelQty t s p + if u.tickerId = t ∧ u.side = s.asSign ∧ u.price = p then u.qty else 0 :=
      fun t s p => by simpa [deltaQty_singleton, hadd] using hl t s p
    obtain ⟨h1, h2⟩ := h.publish e'.levelQty he (by simp [hadd])
      (fun state hs' => hs'.apply_add hadd (fun s p => by rw [hq]; exact Nat.le_add_right _ _)
        (fun s hsd => by rw [hq, if_pos ⟨rfl, hsd, rfl⟩]; exact Nat.le_add_left _ _))
      (fun t ht => by funext s p; rw [hq, if_neg (fun hc => ht hc.1.symm), Nat.add_zero])
    rw [MarketDataPublisher.publishBatch_singleton]
    exact ⟨h1, MarketDataPublisher.publish_config p u, h2⟩
  · rw [hu] at hl ⊢
    have hq : ∀ t s p, e'.levelQty t s p +
        (if u.tickerId = t ∧ u.side = s.asSign ∧ u.price = p then u.qty else 0) =
          e.levelQty t s p := fun t s p => by simpa [deltaQty_singleton, hcan] using hl t s p
    obtain ⟨h1, h2⟩ := h.publish e'.levelQty he (by simp [hcan])
      (fun state hs' => hs'.apply_cancel hcan fun s p => by simpa using hq u.tickerId s p)
      (fun t ht => by
        funext s p; have := hq t s p; rwa [if_neg (fun hc => ht hc.1.symm), Nat.add_zero] at this)
    rw [MarketDataPublisher.publishBatch_singleton]
    exact ⟨h1, MarketDataPublisher.publish_config p u, h2⟩
  · rw [hu] at hl ⊢
    have : e'.levelQty = e.levelQty := funext fun t => funext fun s => funext fun p => by
      simpa using hl t s p
    exact ⟨this ▸ h, rfl, fun v hv => absurd hv (List.not_mem_nil _)⟩

/-- One event keeps the invariant, and every snapshot it sends is backed by the books it
leaves. -/
theorem Inv.step {x : Exchange} (h : x.Inv) (ev : ExchangeEvent) :
    (x.step ev).1.Inv ∧ ∀ u ∈ (x.step ev).2, u.msgType = MarketUpdateType.snapshot.toU8 →
      MarketDataPublisher.SnapshotSound (x.step ev).1.engine.levelQty u := by
  cases ev with
  | request r =>
    have hs := MatchingEngine.processRequest_ok h.engine r
    obtain ⟨h1, h2, h3⟩ := publish_request hs h.sound h.enabled
    exact ⟨⟨hs.inv, (congrArg (·.enableSnapshots) h2).trans h.enabled, h1⟩, h3⟩
  | snapshot =>
    obtain ⟨h1, h2⟩ := h.sound.publishSnapshot
    exact ⟨⟨h.engine, h.enabled, h1⟩, fun u hu _ => h2 u hu⟩
  | tickerSnapshot t => exact ⟨h, fun u hu _ => h.sound.publishTickerSnapshot t u hu⟩

theorem Reachable.inv {x : Exchange} (h : x.Reachable) : x.Inv := by
  induction h with
  | start ts n => exact Inv.start ts n
  | step ev _ ih => exact (ih.step ev).1

/-- A backed snapshot names a level of its ticker's book, with at least its quantity resting
there. -/
theorem level_of_snapshotSound {e : MatchingEngine} (h : e.Inv) {u : MarketUpdate}
    (hu : MarketDataPublisher.SnapshotSound e.levelQty u) :
    ∃ s : Side, u.side = s.asSign ∧ ∃ b level, e.orderBooks.lookup u.tickerId = some b ∧
      (b.levels s).lookup u.price = some level ∧ u.qty ≤ b.levelQty s u.price := by
  obtain ⟨s, hs, hq, hle⟩ := hu
  cases hb : e.orderBooks.lookup u.tickerId with
  | none =>
    simp only [MatchingEngine.levelQty, hb, Option.map_none', Option.getD_none] at hle
    exact absurd hle (Nat.not_le.mpr hq)
  | some b =>
    have hle : u.qty ≤ b.levelQty s u.price := by simpa [MatchingEngine.levelQty, hb] using hle
    obtain ⟨level, hl⟩ := (h.books _ _ hb).level_of_levelQty (lt_of_lt_of_le hq hle)
    exact ⟨s, hs, b, level, rfl, hl, hle⟩

/-- **Every snapshot the exchange sends is backed by its book.** From `main`'s start, after any
requests and snapshots, each `Snapshot` an event sends for ticker `t`, side `s`, price `P` and
quantity `q` names a price level that exists on side `s` of `t`'s book as the event leaves it,
and the orders resting there add up, without wrapping, to at least `q`. -/
theorem Reachable.snapshots {x : Exchange} (h : x.Reachable) (ev : ExchangeEvent) :
    ∀ u ∈ (x.step ev).2, u.msgType = MarketUpdateType.snapshot.toU8 →
      ∃ s : Side, u.side = s.asSign ∧ ∃ b level,
        (x.step ev).1.engine.orderBooks.lookup u.tickerId = some b ∧
        (b.levels s).lookup u.price = some level ∧
        u.qty ≤ ((OrderBook.levelOrders b.resting s u.price).map (·.qty)).sum := by
  obtain ⟨hi, hs⟩ := h.inv.step ev
  exact fun u hu hsnap => level_of_snapshotSound hi.engine (hs u hu hsnap)

/-- The exchange after one bid of 10 at 100 on ticker 1. -/
def oneBid : Exchange :=
  ((start [1] 1000).step (.request (ClientRequest.new .new 7 1 42 1 100 10))).1

theorem snapshots_one_bid :
    ∃ s : Side, (MarketUpdate.new .snapshot 1 0 1 100 10 1).side = s.asSign ∧ ∃ b level,
      (oneBid.step (.tickerSnapshot 1)).1.engine.orderBooks.lookup 1 = some b ∧
      (b.levels s).lookup 100 = some level ∧
      10 ≤ ((OrderBook.levelOrders b.resting s 100).map (·.qty)).sum :=
  Reachable.snapshots (.step _ (.start [1] 1000)) (.tickerSnapshot 1) _ (by decide) (by decide)

end Exchange

end LowLatencyTrading
