import LowLatencyTrading.MarketData
import LowLatencyTrading.TradeEngine

/-!
# The publisher's top of book against the client's (`exchange/src/market_data.rs`)

`update_ticker_state` tracks a top of book per ticker so that `publish_snapshot` can hand a late
subscriber the BBO that a subscriber who applied the whole stream with the rules of
`TradeEngine::on_market_update` holds. The two trackers differ in three places:

* the publisher marks an empty side with price 0, the client with `INVALID_PRICE`;
* a `Cancel` of quantity 0 at the best price leaves the publisher's quantity alone and empties
  the client's;
* a `Cancel` that empties the best level drops the publisher's price, so that a later, worse
  price takes its place, while the client keeps the old price with quantity 0 and ignores the
  worse one.

So the snapshot and the subscriber part ways (`snapshot_disagrees`). One direction survives:
with every published price strictly between 0 and `INVALID_PRICE`, the publisher's state
`Tracks` the client's BBO through every update and every snapshot the subscriber applies, so a
side the subscriber holds, the snapshot holds too, at the same price and quantity
(`Published.snapshot_backs_subscriber`).
-/

namespace LowLatencyTrading

/-- The BBO for ticker `t` of a subscriber that has applied `stream` from `BBO::new()` with the
rules of `on_market_update`. Applied to one snapshot's updates, it is the BBO a late joiner
rebuilds from that snapshot. -/
def subscriberBbo (stream : List MarketUpdate) (t : TickerId) : BBO :=
  (stream.filter (·.tickerId = t)).foldl BBO.apply BBO.new

theorem subscriberBbo_append (stream stream' : List MarketUpdate) (t : TickerId) :
    subscriberBbo (stream ++ stream') t =
      (stream'.filter (·.tickerId = t)).foldl BBO.apply (subscriberBbo stream t) := by
  simp only [subscriberBbo, List.filter_append, List.foldl_append]

/-! ## One ticker -/

/-- The publisher's bid `sp`, `sq` tracks the client's bid `bp`, `bq`: the publisher's price is
a price or its empty mark 0, never above the client's; the client's is a price or
`INVALID_PRICE`, and then the publisher's side is empty; and a live client bid is the
publisher's. -/
def BidTracks (sp : Int) (sq : Nat) (bp : Int) (bq : Nat) : Prop :=
  0 ≤ sp ∧ sp ≤ bp ∧ 0 < bp ∧ bp ≤ invalidPrice ∧ (bp = invalidPrice → sp = 0) ∧
    (bp < invalidPrice → 0 < bq → sp = bp ∧ sq = bq)

/-- The publisher's ask `sp`, `sq` tracks the client's ask `ap`, `aq`: as for the bid, with the
publisher's price, when not empty, never below the client's. -/
def AskTracks (sp : Int) (sq : Nat) (ap : Int) (aq : Nat) : Prop :=
  0 ≤ sp ∧ sp < invalidPrice ∧ (sp = 0 ∨ ap ≤ sp) ∧ 0 < ap ∧ ap ≤ invalidPrice ∧
    (ap = invalidPrice → sp = 0) ∧ (ap < invalidPrice → 0 < aq → sp = ap ∧ sq = aq)

/-- A publisher's ticker state tracks a client's BBO on both sides. -/
structure Tracks (s : TickerState) (b : BBO) : Prop where
  bid : BidTracks s.bidPrice s.bidQty b.bidPrice b.bidQty
  ask : AskTracks s.askPrice s.askQty b.askPrice b.askQty

theorem Tracks.init : Tracks default BBO.new where
  bid := by unfold BidTracks; decide
  ask := by unfold AskTracks; decide

/-! ### One side, one update

Each lemma takes one side of both trackers through one update that reaches it, written as the
two `apply`s compute that side's price and quantity. -/

section
variable {sp bp p : Price} {sq bq q : Qty}

theorem BidTracks.add (h : BidTracks sp sq bp bq) (h₁ : 0 < p) (h₂ : p < invalidPrice) :
    BidTracks (if p > sp ∨ sp = 0 then p else sp)
      (if p > sp ∨ sp = 0 then q else if p = sp then q else sq)
      (if p > bp ∨ bp = invalidPrice then p else bp)
      (if p > bp ∨ bp = invalidPrice then q else if p = bp then q else bq) := by
  have hinv : invalidPrice = 2 ^ 63 - 1 := rfl
  unfold BidTracks at *
  dsimp only [Price, Qty] at *
  refine ⟨?_, ?_, ?_, ?_, ?_, ?_⟩ <;> (try split_ifs) <;> omega

theorem AskTracks.add (h : AskTracks sp sq bp bq) (h₁ : 0 < p) (h₂ : p < invalidPrice) :
    AskTracks (if sp = 0 ∨ p < sp then p else sp)
      (if sp = 0 ∨ p < sp then q else if p = sp then q else sq)
      (if p < bp ∨ bp = invalidPrice then p else bp)
      (if p < bp ∨ bp = invalidPrice then q else if p = bp then q else bq) := by
  have hinv : invalidPrice = 2 ^ 63 - 1 := rfl
  unfold AskTracks at *
  dsimp only [Price, Qty] at *
  refine ⟨?_, ?_, ?_, ?_, ?_, ?_, ?_⟩ <;> (try split_ifs) <;> omega

/-- A cancel at the best bid: the publisher drops its price once the quantity runs out, the
client keeps its price with quantity 0. -/
theorem BidTracks.cancel (h : BidTracks sp sq bp bq) (h₁ : 0 < p) :
    BidTracks (if p = sp then if sq - q = 0 then 0 else sp else sp)
      (if p = sp then sq - q else sq) bp
      (if p = bp then if q = 0 ∨ q ≥ bq then 0 else bq - q else bq) := by
  unfold BidTracks at *
  dsimp only [Price, Qty] at *
  refine ⟨?_, ?_, ?_, ?_, ?_, ?_⟩ <;> (try split_ifs) <;> omega

theorem AskTracks.cancel (h : AskTracks sp sq bp bq) (h₁ : 0 < p) :
    AskTracks (if p = sp then if sq - q = 0 then 0 else sp else sp)
      (if p = sp then sq - q else sq) bp
      (if p = bp then if q = 0 ∨ q ≥ bq then 0 else bq - q else bq) := by
  unfold AskTracks at *
  dsimp only [Price, Qty] at *
  refine ⟨?_, ?_, ?_, ?_, ?_, ?_, ?_⟩ <;> (try split_ifs) <;> omega

theorem BidTracks.trade (h : BidTracks sp sq bp bq) :
    BidTracks sp (if p = sp then sq - q else sq) bp (if p = bp then bq - q else bq) := by
  unfold BidTracks at *
  dsimp only [Price, Qty] at *
  refine ⟨?_, ?_, ?_, ?_, ?_, ?_⟩ <;> (try split_ifs) <;> omega

theorem AskTracks.trade (h : AskTracks sp sq bp bq) :
    AskTracks sp (if p = sp then sq - q else sq) bp (if p = bp then bq - q else bq) := by
  unfold AskTracks at *
  dsimp only [Price, Qty] at *
  refine ⟨?_, ?_, ?_, ?_, ?_, ?_, ?_⟩ <;> (try split_ifs) <;> omega

/-- A live client bid is the publisher's, and the publisher's side is not empty. -/
theorem BidTracks.live (h : BidTracks sp sq bp bq) (hp : bp ≠ invalidPrice) (hq : 0 < bq) :
    0 < sp ∧ 0 < sq ∧ sp = bp ∧ sq = bq := by
  unfold BidTracks at h
  dsimp only [Price, Qty] at *
  omega

theorem AskTracks.live (h : AskTracks sp sq bp bq) (hp : bp ≠ invalidPrice) (hq : 0 < bq) :
    0 < sp ∧ 0 < sq ∧ sp = bp ∧ sq = bq := by
  unfold AskTracks at h
  dsimp only [Price, Qty] at *
  omega

end

/-! ### Both sides, one update -/

section
variable {s : TickerState} {b : BBO} {u : MarketUpdate}

/-- `Modify` and `Snapshot` update a ticker state as `Add` does. -/
theorem TickerState.apply_of_requote (hk : MarketUpdateType.fromU8 u.msgType = some .modify ∨
      MarketUpdateType.fromU8 u.msgType = some .snapshot) :
    s.apply u = s.apply { u with msgType := MarketUpdateType.add.toU8 } := by
  rcases hk with hk | hk <;> simp only [TickerState.apply, hk, MarketUpdateType.fromU8_toU8]

/-- `Modify` and `Snapshot` update a BBO as `Add` does. -/
theorem BBO.apply_of_requote (hk : MarketUpdateType.fromU8 u.msgType = some .modify ∨
      MarketUpdateType.fromU8 u.msgType = some .snapshot) :
    b.apply u = b.apply { u with msgType := MarketUpdateType.add.toU8 } := by
  rcases hk with hk | hk <;> simp only [BBO.apply, hk, MarketUpdateType.fromU8_toU8]

theorem Tracks.add (h : Tracks s b) (hk : MarketUpdateType.fromU8 u.msgType = some .add)
    (h₁ : 0 < u.price) (h₂ : u.price < invalidPrice) : Tracks (s.apply u) (b.apply u) := by
  obtain ⟨hb, ha⟩ := h
  simp only [TickerState.apply, BBO.apply, hk]
  constructor <;> simp only [apply_ite TickerState.bidPrice, apply_ite TickerState.bidQty,
    apply_ite TickerState.askPrice, apply_ite TickerState.askQty, apply_ite BBO.bidPrice,
    apply_ite BBO.bidQty, apply_ite BBO.askPrice, apply_ite BBO.askQty, ite_self]
  · by_cases hs : u.side = Side.buy.asSign
    · simpa only [if_pos hs] using hb.add h₁ h₂
    · simpa only [if_neg hs] using hb
  · by_cases hs : u.side = Side.buy.asSign
    · simpa only [if_pos hs] using ha
    by_cases hs' : u.side = Side.sell.asSign
    · simpa only [if_neg hs, if_pos hs'] using ha.add h₁ h₂
    · simpa only [if_neg hs, if_neg hs'] using ha

theorem Tracks.cancel (h : Tracks s b) (hk : MarketUpdateType.fromU8 u.msgType = some .cancel)
    (h₁ : 0 < u.price) : Tracks (s.apply u) (b.apply u) := by
  obtain ⟨hb, ha⟩ := h
  simp only [TickerState.apply, BBO.apply, hk]
  constructor <;> simp only [apply_ite TickerState.bidPrice, apply_ite TickerState.bidQty,
    apply_ite TickerState.askPrice, apply_ite TickerState.askQty, apply_ite BBO.bidPrice,
    apply_ite BBO.bidQty, apply_ite BBO.askPrice, apply_ite BBO.askQty, ite_self]
  · by_cases hs : u.side = Side.buy.asSign
    · simpa only [hs, true_and] using hb.cancel h₁
    · simpa only [hs, false_and, if_false] using hb
  · have hne : Side.buy.asSign ≠ Side.sell.asSign := by decide
    by_cases hs : u.side = Side.sell.asSign
    · simpa only [hs, hne.symm, true_and, false_and, if_false] using ha.cancel h₁
    · simpa only [hs, false_and, if_false, ite_self] using ha

/-- A `Trade` on the buy side hits the ask, on the sell side the bid. -/
theorem Tracks.trade (h : Tracks s b) (hk : MarketUpdateType.fromU8 u.msgType = some .trade) :
    Tracks (s.apply u) (b.apply u) := by
  obtain ⟨hb, ha⟩ := h
  simp only [TickerState.apply, BBO.apply, hk]
  constructor <;> simp only [apply_ite TickerState.bidPrice, apply_ite TickerState.bidQty,
    apply_ite TickerState.askPrice, apply_ite TickerState.askQty, apply_ite BBO.bidPrice,
    apply_ite BBO.bidQty, apply_ite BBO.askPrice, apply_ite BBO.askQty, ite_self]
  · have hne : Side.buy.asSign ≠ Side.sell.asSign := by decide
    by_cases hs : u.side = Side.sell.asSign
    · simpa only [hs, hne.symm, true_and, false_and, if_false] using hb.trade (p := u.price)
    · simpa only [hs, false_and, if_false, ite_self] using hb
  · by_cases hs : u.side = Side.buy.asSign
    · simpa only [hs, true_and] using ha.trade (p := u.price)
    · simpa only [hs, false_and, if_false] using ha

/-- **One update keeps the trackers in step**, whatever its kind, side, price and quantity, once
its price is strictly between 0 and `INVALID_PRICE`. -/
theorem Tracks.apply (h : Tracks s b) (h₁ : 0 < u.price) (h₂ : u.price < invalidPrice) :
    Tracks (s.apply u) (b.apply u) := by
  cases hk : MarketUpdateType.fromU8 u.msgType with
  | none => simpa only [TickerState.apply, BBO.apply, hk] using h
  | some k =>
    cases k
    case add => exact h.add hk h₁ h₂
    case modify | snapshot =>
      rw [TickerState.apply_of_requote (by simp [hk]), BBO.apply_of_requote (by simp [hk])]
      exact h.add rfl h₁ h₂
    case cancel => exact h.cancel hk h₁
    case trade => exact h.trade hk
    case clear => simpa only [TickerState.apply, BBO.apply, hk] using Tracks.init

end

/-! ### The publisher's own snapshot -/

section
variable {t : TickerId} {s : TickerState} {n : Nat} {u : MarketUpdate}

/-- What a ticker's snapshot holds: an update for each side the state has a price and quantity
on, at that price and quantity. -/
theorem mem_stateSnapshots (hu : u ∈ MarketDataPublisher.stateSnapshots t s n) :
    s.bidPrice > 0 ∧ s.bidQty > 0 ∧
        u = MarketUpdate.new .snapshot t 0 Side.buy.asSign s.bidPrice s.bidQty n ∨
      s.askPrice > 0 ∧ s.askQty > 0 ∧
        u = MarketUpdate.new .snapshot t 0 Side.sell.asSign s.askPrice s.askQty n := by
  simp only [MarketDataPublisher.stateSnapshots, List.mem_append] at hu
  rcases hu with hu | hu <;> split_ifs at hu with hq <;>
    simp only [List.mem_singleton, List.not_mem_nil] at hu
  exacts [.inl ⟨hq.1, hq.2, hu⟩, .inr ⟨hq.1, hq.2, hu⟩]

/-- A ticker state takes back its own snapshot unchanged. -/
theorem TickerState.apply_stateSnapshot (hu : u ∈ MarketDataPublisher.stateSnapshots t s n) :
    s.apply u = s := by
  have hne : Side.sell.asSign ≠ Side.buy.asSign := by decide
  rcases mem_stateSnapshots hu with ⟨-, -, rfl⟩ | ⟨-, -, rfl⟩ <;>
    simp only [TickerState.apply, MarketUpdate.new, MarketUpdateType.fromU8_toU8, hne, if_false,
      if_true] <;>
    split_ifs <;> rfl

/-- The subscriber applying the publisher's snapshot stays tracked. -/
theorem Tracks.stateSnapshots {b : BBO} (h : Tracks s b) :
    Tracks s ((MarketDataPublisher.stateSnapshots t s n).foldl BBO.apply b) := by
  have step : ∀ b, Tracks s b → ∀ u ∈ MarketDataPublisher.stateSnapshots t s n,
      Tracks s (b.apply u) := by
    intro b hb u hu
    have hp : 0 < u.price ∧ u.price < invalidPrice := by
      obtain ⟨⟨-, hle, -, hbi, hinv, -⟩, ⟨-, hai, -⟩⟩ := hb
      rcases mem_stateSnapshots hu with ⟨hp, -, rfl⟩ | ⟨hp, -, rfl⟩ <;>
        dsimp only [MarketUpdate.new, Price] at * <;> omega
    simpa only [TickerState.apply_stateSnapshot hu] using hb.apply hp.1 hp.2
  generalize MarketDataPublisher.stateSnapshots t s n = us at step ⊢
  induction us generalizing b with
  | nil => exact h
  | cons u us ih =>
    exact ih (step _ h u (List.mem_cons_self _ _)) fun b hb u hu => step b hb u (.tail _ hu)

end

/-- What a late joiner rebuilds from a ticker's snapshot: each side the snapshot carries, and
an empty side elsewhere. -/
theorem stateSnapshots_bbo (t : TickerId) (s : TickerState) (n : Nat) :
    (MarketDataPublisher.stateSnapshots t s n).foldl BBO.apply BBO.new =
      ⟨if s.bidPrice > 0 ∧ s.bidQty > 0 then s.bidPrice else invalidPrice,
        if s.bidPrice > 0 ∧ s.bidQty > 0 then s.bidQty else 0,
        if s.askPrice > 0 ∧ s.askQty > 0 then s.askPrice else invalidPrice,
        if s.askPrice > 0 ∧ s.askQty > 0 then s.askQty else 0⟩ := by
  unfold MarketDataPublisher.stateSnapshots
  split_ifs <;> simp [BBO.apply, BBO.new, MarketUpdate.new]

/-! ## The publisher's runs -/

namespace MarketDataPublisher

/-- The part of `publish` before its cadence check: the update folded into its ticker's state,
and the counters advanced. -/
def track (p : MarketDataPublisher) (update : MarketUpdate) : MarketDataPublisher :=
  let p := if p.config.enableSnapshots then p.updateTickerState update.tickerId update else p
  { p with sequence := p.sequence + 1, updatesSinceSnapshot := p.updatesSinceSnapshot + 1 }

theorem publish_eq (p : MarketDataPublisher) (u : MarketUpdate) :
    p.publish u =
      if (p.track u).config.enableSnapshots ∧ (p.track u).config.snapshotInterval > 0 ∧
          (p.track u).updatesSinceSnapshot ≥ (p.track u).config.snapshotInterval then
        ((p.track u).publishSnapshot.1, u :: (p.track u).publishSnapshot.2)
      else (p.track u, [u]) := rfl

/-- The publisher's states from `MarketDataPublisher::new`, with everything it has sent: each
step is `publish`'s first half, `track`, on an update priced strictly between 0 and
`INVALID_PRICE`, or a `publish_snapshot`, whether `publish` runs it at its cadence or a caller
does. -/
inductive Published (config : MarketDataPublisherConfig) :
    MarketDataPublisher → List MarketUpdate → Prop
  | new : Published config (new config) []
  | track {p : MarketDataPublisher} {out : List MarketUpdate} (u : MarketUpdate) :
      0 < u.price → u.price < invalidPrice → Published config p out →
      Published config (p.track u) (out ++ [u])
  | snapshot {p : MarketDataPublisher} {out : List MarketUpdate} :
      Published config p out → Published config p.publishSnapshot.1 (out ++ p.publishSnapshot.2)

variable {config : MarketDataPublisherConfig} {p : MarketDataPublisher} {out : List MarketUpdate}

/-- Every `publish` is a run of `Published`. -/
theorem Published.publish (h : Published config p out) (u : MarketUpdate) (h₁ : 0 < u.price)
    (h₂ : u.price < invalidPrice) : Published config (p.publish u).1 (out ++ (p.publish u).2) := by
  rw [publish_eq]
  split
  · simpa using (h.track u h₁ h₂).snapshot
  · exact h.track u h₁ h₂

/-- Every `publish_batch` of updates priced strictly between 0 and `INVALID_PRICE` is a run of
`Published`. -/
theorem Published.publishBatch (h : Published config p out) (us : List MarketUpdate)
    (hus : ∀ u ∈ us, 0 < u.price ∧ u.price < invalidPrice) :
    Published config (p.publishBatch us).1 (out ++ (p.publishBatch us).2) := by
  induction us generalizing p out with
  | nil => simpa [MarketDataPublisher.publishBatch] using h
  | cons u us ih =>
    have hu := hus u (List.mem_cons_self _ _)
    simpa only [MarketDataPublisher.publishBatch, List.append_assoc] using
      ih (h.publish u hu.1 hu.2) fun v hv => hus v (List.mem_cons_of_mem _ hv)

theorem Published.config_eq (h : Published config p out) : p.config = config := by
  induction h with
  | new => rfl
  | track u _ _ _ ih => simp only [MarketDataPublisher.track, ← ih]; split <;> rfl
  | snapshot _ ih => exact ih

/-- A snapshot's updates for one ticker are that ticker's `stateSnapshots`. -/
theorem filter_publishSnapshot (p : MarketDataPublisher) (t : TickerId) :
    p.publishSnapshot.2.filter (·.tickerId = t) =
      stateSnapshots t ((p.tickerState.lookup t).getD default) p.sequence := by
  have hticker : ∀ t' s n, ∀ u ∈ stateSnapshots t' s n, u.tickerId = t' := by
    intro t' s n u hu
    rcases mem_stateSnapshots hu with ⟨-, -, rfl⟩ | ⟨-, -, rfl⟩ <;> rfl
  have hkeys : ∀ ks : List TickerId, ks.Nodup →
      (ks.flatMap fun t' => stateSnapshots t' ((p.tickerState.lookup t').getD default)
        p.sequence).filter (·.tickerId = t) =
      if t ∈ ks then stateSnapshots t ((p.tickerState.lookup t).getD default) p.sequence
      else [] := by
    intro ks hks
    induction ks with
    | nil => rfl
    | cons k ks ih =>
      rw [List.flatMap_cons, List.filter_append, ih hks.of_cons]
      by_cases hk : k = t
      · subst hk
        rw [List.filter_eq_self.mpr fun u hu => by simp [hticker _ _ _ u hu],
          if_neg (List.nodup_cons.mp hks).1, if_pos (List.mem_cons_self _ _), List.append_nil]
      · rw [List.filter_eq_nil_iff.mpr fun u hu => by simp [hticker _ _ _ u hu, hk]]
        simp [Ne.symm hk]
  rw [publishSnapshot, hkeys _ p.tickerState.keys_nodup]
  split
  · rfl
  · rw [AList.lookup_eq_none.mpr ‹_›]; rfl

/-- **The publisher tracks every subscriber.** In every run with snapshots on, each ticker's
state tracks the BBO of a subscriber that has applied everything sent so far. -/
theorem Published.tracks (h : Published config p out) (he : config.enableSnapshots = true)
    (t : TickerId) : Tracks ((p.tickerState.lookup t).getD default) (subscriberBbo out t) := by
  induction h with
  | new => exact Tracks.init
  | @track p out u h₁ h₂ hp ih =>
    rw [subscriberBbo_append]
    simp only [MarketDataPublisher.track, hp.config_eq, he, if_true, updateTickerState]
    by_cases ht : u.tickerId = t
    · subst ht
      have := ih.apply h₁ h₂
      simp only [AList.lookup_insert, Option.getD_some, List.filter_singleton, decide_True,
        cond_true, List.foldl_cons, List.foldl_nil]
      exact ⟨this.bid, this.ask⟩
    · simpa [AList.lookup_insert_ne (Ne.symm ht), ht] using ih
  | snapshot _ ih =>
    rw [subscriberBbo_append, filter_publishSnapshot]
    exact ih.stateSnapshots

/-- What a late joiner rebuilds from a snapshot for ticker `t`: each side of the publisher's
state for `t` that has a price and a quantity. -/
theorem subscriberBbo_publishSnapshot (p : MarketDataPublisher) (t : TickerId) :
    subscriberBbo p.publishSnapshot.2 t =
      let s := (p.tickerState.lookup t).getD default
      ⟨if s.bidPrice > 0 ∧ s.bidQty > 0 then s.bidPrice else invalidPrice,
        if s.bidPrice > 0 ∧ s.bidQty > 0 then s.bidQty else 0,
        if s.askPrice > 0 ∧ s.askQty > 0 then s.askPrice else invalidPrice,
        if s.askPrice > 0 ∧ s.askQty > 0 then s.askQty else 0⟩ := by
  rw [subscriberBbo, filter_publishSnapshot, stateSnapshots_bbo]

/-- **A snapshot carries every side the subscriber holds.** In every run of the publisher with
snapshots on and every price strictly between 0 and `INVALID_PRICE`, whenever
`publish_snapshot` runs, and for every ticker: if a subscriber that has applied everything sent
so far has a bid, the BBO rebuilt from the snapshot alone has the same bid, price and
quantity; likewise the ask. -/
theorem Published.snapshot_backs_subscriber (h : Published config p out)
    (he : config.enableSnapshots = true) (t : TickerId) :
    ((subscriberBbo out t).hasBid = true →
      (subscriberBbo p.publishSnapshot.2 t).hasBid = true ∧
        (subscriberBbo p.publishSnapshot.2 t).bidPrice = (subscriberBbo out t).bidPrice ∧
        (subscriberBbo p.publishSnapshot.2 t).bidQty = (subscriberBbo out t).bidQty) ∧
      ((subscriberBbo out t).hasAsk = true →
        (subscriberBbo p.publishSnapshot.2 t).hasAsk = true ∧
          (subscriberBbo p.publishSnapshot.2 t).askPrice = (subscriberBbo out t).askPrice ∧
          (subscriberBbo p.publishSnapshot.2 t).askQty = (subscriberBbo out t).askQty) := by
  obtain ⟨hb, ha⟩ := h.tracks he t
  rw [subscriberBbo_publishSnapshot]
  generalize (p.tickerState.lookup t).getD default = s at *
  generalize subscriberBbo out t = b at *
  simp only [BBO.hasBid, BBO.hasAsk, decide_eq_true_eq]
  refine ⟨fun ⟨hp, hq⟩ => ?_, fun ⟨hp, hq⟩ => ?_⟩
  · obtain ⟨hsp, hsq, hpe, hqe⟩ := hb.live hp hq
    simp only [if_pos (And.intro hsp hsq)]
    exact ⟨⟨hpe ▸ hp, hqe ▸ hq⟩, hpe, hqe⟩
  · obtain ⟨hsp, hsq, hpe, hqe⟩ := ha.live hp hq
    simp only [if_pos (And.intro hsp hsq)]
    exact ⟨⟨hpe ▸ hp, hqe ▸ hq⟩, hpe, hqe⟩

/-- A quote on each side of ticker 1. -/
def quoteBid : MarketUpdate := MarketUpdate.new .add 1 1 Side.buy.asSign 100 10 0

def quoteAsk : MarketUpdate := MarketUpdate.new .add 1 2 Side.sell.asSign 101 7 1

/-- The publisher after both quotes, snapshots on and taken on demand. -/
def quoted : MarketDataPublisher := ((new ⟨true, 0⟩).track quoteBid).track quoteAsk

theorem quotes_backed_by_snapshot :
    (subscriberBbo [quoteBid, quoteAsk] 1).hasBid = true ∧
      ((subscriberBbo quoted.publishSnapshot.2 1).hasBid = true ∧
        (subscriberBbo quoted.publishSnapshot.2 1).bidPrice =
          (subscriberBbo [quoteBid, quoteAsk] 1).bidPrice ∧
        (subscriberBbo quoted.publishSnapshot.2 1).bidQty =
          (subscriberBbo [quoteBid, quoteAsk] 1).bidQty) ∧
      (subscriberBbo [quoteBid, quoteAsk] 1).hasAsk = true ∧
      ((subscriberBbo quoted.publishSnapshot.2 1).hasAsk = true ∧
        (subscriberBbo quoted.publishSnapshot.2 1).askPrice =
          (subscriberBbo [quoteBid, quoteAsk] 1).askPrice ∧
        (subscriberBbo quoted.publishSnapshot.2 1).askQty =
          (subscriberBbo [quoteBid, quoteAsk] 1).askQty) := by
  have h := Published.snapshot_backs_subscriber
    (.track quoteAsk (by decide) (by decide) (.track quoteBid (by decide) (by decide) (.new : Published ⟨true, 0⟩ _ _))) rfl 1
  have hb : (subscriberBbo [quoteBid, quoteAsk] 1).hasBid = true := by decide
  have ha : (subscriberBbo [quoteBid, quoteAsk] 1).hasAsk = true := by decide
  exact ⟨hb, h.1 hb, ha, h.2 ha⟩

/-- A bid emptied by a cancel, then a worse bid: the publisher has dropped the emptied level and
takes the worse price, the client keeps the empty level and ignores it. -/
def staleBid : List MarketUpdate :=
  [quoteBid, MarketUpdate.new .cancel 1 1 Side.buy.asSign 100 10 0,
    MarketUpdate.new .add 1 3 Side.buy.asSign 99 5 2]

/-- A bid at `INVALID_PRICE`, the client's empty mark, then a real bid: the client takes the
real bid in its place, the publisher keeps the higher one. -/
def sentinelBid : List MarketUpdate :=
  [MarketUpdate.new .add 1 1 Side.buy.asSign invalidPrice 5 0, quoteBid]

/-- **The snapshot and the subscriber part ways.** After `staleBid` the snapshot has a bid the
subscriber has not; after `sentinelBid` the subscriber has a bid the snapshot has not. -/
theorem snapshot_disagrees :
    (subscriberBbo ((new ⟨true, 0⟩).publishBatch staleBid).2 1).hasBid = false ∧
      (subscriberBbo ((new ⟨true, 0⟩).publishBatch staleBid).1.publishSnapshot.2 1).hasBid =
        true ∧
      (subscriberBbo ((new ⟨true, 0⟩).publishBatch sentinelBid).2 1).hasBid = true ∧
      (subscriberBbo ((new ⟨true, 0⟩).publishBatch sentinelBid).1.publishSnapshot.2 1).hasBid =
        false := by
  decide

end MarketDataPublisher

end LowLatencyTrading
