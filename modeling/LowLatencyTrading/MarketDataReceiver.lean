import LowLatencyTrading.BboTracking
import LowLatencyTrading.Codec

/-!
# The client's market data receiver (`trading/src/market_data.rs`)

`MarketDataReceiver` reads the exchange's multicast feed one datagram at a time and keeps a BBO
per ticker. `poll` decodes the first `MARKET_UPDATE_SIZE` bytes of a datagram at least that
long; `process_update` applies the update to its ticker's BBO with the rules of
`TradeEngine::on_market_update` (`BBO.apply`) and calls the subscribers with the result, except
that an update of unknown type returns at once, creating no entry. `poll_and_process` repeats
the two until `poll` yields nothing.

The socket is the list of results `try_recv` returns call after call; once it is used up,
`try_recv` would block. The subscriber callbacks are the notifications `process_update`
returns; `last_seq` is never read.

Three things are proved. A datagram yields an update exactly when it starts with the image of
that update (`poll_eq_some_iff`), so the publisher's datagrams read back as the updates it sent.
What a run of `poll_and_process` leaves for a ticker is the fold of `BBO.apply` over the
ticker's updates (`processAll_getD`), the BBO of `subscriberBbo`. And so a client that reads the
publisher's datagrams in order, in any number of calls, holds for each ticker a BBO that the
publisher's state tracks (`receiver_tracks_publisher`).
-/

namespace LowLatencyTrading

/-- What `MulticastSocket::try_recv` returns. -/
inductive MulticastRecv where
  /-- `Ok(Some(data))`: one datagram. -/
  | datagram (bytes : List UInt8)
  /-- `Ok(None)`: nothing waiting. -/
  | wouldBlock
  /-- `Err(e)`. -/
  | error
  deriving DecidableEq, Repr

/-- A call of a subscriber callback: the ticker, the update and the BBO after it. -/
structure Notification where
  tickerId : TickerId
  update : MarketUpdate
  bbo : BBO
  deriving DecidableEq, Repr

/-- `MarketDataReceiver`: its BBO per ticker. -/
structure MarketDataReceiver where
  bbo : HashMap TickerId BBO

namespace MarketDataReceiver

/-- `MarketDataReceiver::new`, once the socket has joined the group. -/
def new : MarketDataReceiver := ⟨∅⟩

/-- `poll`, on what `try_recv` returned. -/
def poll : MulticastRecv → Option MarketUpdate
  | .datagram data =>
    if data.length ≥ marketUpdateSize then MarketUpdate.fromBytes (data.take marketUpdateSize)
    else none
  | .wouldBlock => none
  | .error => none

/-- `process_update`: the receiver after it and the call its subscribers get. -/
def processUpdate (r : MarketDataReceiver) (update : MarketUpdate) :
    MarketDataReceiver × Option Notification :=
  match MarketUpdateType.fromU8 update.msgType with
  | none => (r, none)
  | some _ =>
    let bbo := ((r.bbo.lookup update.tickerId).getD BBO.new).apply update
    (⟨r.bbo.insert update.tickerId bbo⟩, some ⟨update.tickerId, update, bbo⟩)

/-- `get_bbo`. -/
def getBbo (r : MarketDataReceiver) (tickerId : TickerId) : Option BBO := r.bbo.lookup tickerId

/-- `reserve_tickers`: `entry(ticker_id).or_insert_with(BBO::new)` for each ticker. -/
def reserveTickers (r : MarketDataReceiver) (tickers : List TickerId) : MarketDataReceiver :=
  ⟨tickers.foldl (fun m t => m.orInsert t BBO.new) r.bbo⟩

/-- `poll_and_process`, given what `try_recv` returns call after call: the receiver after it,
its subscribers' calls, the results it has not read, and the count it returns. -/
def pollAndProcess (r : MarketDataReceiver) :
    List MulticastRecv → MarketDataReceiver × List Notification × List MulticastRecv × Nat
  | [] => (r, [], [], 0)
  | recv :: rest =>
    match poll recv with
    | none => (r, [], rest, 0)
    | some update =>
      let (r₁, n) := r.processUpdate update
      let (r₂, ns, unread, count) := r₁.pollAndProcess rest
      (r₂, n.toList ++ ns, unread, count + 1)

/-! ## Reading a datagram -/

/-- **A datagram is read exactly when it starts with an update's image.** `poll` yields `u`
exactly when the result is a datagram made of `u.as_bytes()` and any bytes after it, `u` within
its field types. -/
theorem poll_eq_some_iff (recv : MulticastRecv) (u : MarketUpdate) :
    poll recv = some u ↔ u.Fits ∧ ∃ extra, recv = .datagram (u.asBytes ++ extra) := by
  have hlen := MarketUpdate.wireLaws.length_asBytes u
  constructor
  · intro h
    cases recv with
    | datagram data =>
      simp only [poll] at h
      split_ifs at h with hd
      obtain ⟨r, hr, hfit, hb⟩ :=
        MarketUpdate.wireLaws.asBytes_fromBytes (data.take marketUpdateSize)
          (by simp only [List.length_take]; omega)
      obtain rfl : r = u := Option.some.inj (hr.symm.trans h)
      exact ⟨hfit, data.drop marketUpdateSize, by rw [hb, List.take_append_drop]⟩
    | wouldBlock => cases h
    | error => cases h
  · rintro ⟨hfit, extra, rfl⟩
    simp only [poll, List.length_append, hlen, List.take_left' hlen, if_pos (Nat.le_add_right _ _)]
    exact MarketUpdate.wireLaws.fromBytes_asBytes u hfit

/-- The datagrams the publisher multicasts for `out`: `send_to(update.as_bytes())` each. -/
def datagrams (out : List MarketUpdate) : List MulticastRecv :=
  out.map fun u => .datagram u.asBytes

theorem poll_datagram_asBytes {u : MarketUpdate} (h : u.Fits) :
    poll (.datagram u.asBytes) = some u :=
  (poll_eq_some_iff _ u).mpr ⟨h, [], by rw [List.append_nil]⟩

/-! ## `poll_and_process` as polling, then processing -/

/-- The updates `poll` yields from `rs` before the first result it turns to `None`, and the
results after that one. -/
def polled : List MulticastRecv → List MarketUpdate × List MulticastRecv
  | [] => ([], [])
  | recv :: rest =>
    match poll recv with
    | none => ([], rest)
    | some u => (u :: (polled rest).1, (polled rest).2)

/-- `process_update` over `us`, in order. -/
def processAll (r : MarketDataReceiver) (us : List MarketUpdate) : MarketDataReceiver :=
  us.foldl (fun r u => (r.processUpdate u).1) r

/-- `poll_and_process` processes, in order, the updates polled before the first result that
yields none, which it reads too, and counts them. -/
theorem pollAndProcess_eq (r : MarketDataReceiver) (rs : List MulticastRecv) :
    (r.pollAndProcess rs).1 = r.processAll (polled rs).1 ∧
      (r.pollAndProcess rs).2.2 = ((polled rs).2, (polled rs).1.length) := by
  induction rs generalizing r with
  | nil => exact ⟨rfl, rfl⟩
  | cons recv rest ih =>
    simp only [pollAndProcess, polled]
    cases poll recv with
    | none => exact ⟨rfl, rfl⟩
    | some u =>
      obtain ⟨h₁, h₂⟩ := ih (r.processUpdate u).1
      exact ⟨h₁, by simp only [h₂, List.length_cons]⟩

/-- The publisher's datagrams, all of fitting updates, are polled whole. -/
theorem polled_datagrams {out : List MarketUpdate} (h : ∀ u ∈ out, u.Fits) :
    polled (datagrams out) = (out, []) := by
  induction out with
  | nil => rfl
  | cons u out ih =>
    simp only [datagrams, List.map_cons, polled] at ih ⊢
    rw [poll_datagram_asBytes (h u (List.mem_cons_self _ _)),
      ih fun v hv => h v (List.mem_cons_of_mem _ hv)]

/-! ## The BBO a run leaves -/

@[simp] theorem getD_processUpdate (r : MarketDataReceiver) (u : MarketUpdate) (t : TickerId) :
    (((r.processUpdate u).1.bbo.lookup t).getD BBO.new) =
      if u.tickerId = t then ((r.bbo.lookup t).getD BBO.new).apply u
      else (r.bbo.lookup t).getD BBO.new := by
  unfold processUpdate
  split
  · rename_i hk
    split_ifs <;> simp only [BBO.apply, hk]
  · split_ifs with ht
    · subst ht; simp only [AList.lookup_insert, Option.getD_some]
    · simp only [AList.lookup_insert_ne (Ne.symm ht)]

/-- **A run leaves each ticker the fold of its updates.** Whatever `r` held for `t`, after
`process_update` over `us` the receiver holds `BBO.apply` folded over the updates of `t` in
`us`, from `BBO::new()` where it held none. -/
theorem processAll_getD (r : MarketDataReceiver) (us : List MarketUpdate) (t : TickerId) :
    ((r.processAll us).bbo.lookup t).getD BBO.new =
      (us.filter (·.tickerId = t)).foldl BBO.apply ((r.bbo.lookup t).getD BBO.new) := by
  induction us generalizing r with
  | nil => rfl
  | cons u us ih =>
    simp only [processAll, List.foldl_cons] at ih ⊢
    rw [ih, getD_processUpdate, List.filter_cons]
    by_cases ht : u.tickerId = t <;> simp [ht]

/-- `reserve_tickers` gives each listed ticker a BBO and leaves every ticker's BBO as it was,
`BBO::new()` standing for none. -/
theorem reserveTickers_lookup (r : MarketDataReceiver) (ts : List TickerId) (t : TickerId) :
    ((r.reserveTickers ts).bbo.lookup t).getD BBO.new = (r.bbo.lookup t).getD BBO.new ∧
      (((r.reserveTickers ts).bbo.lookup t).isSome ↔ t ∈ ts ∨ (r.bbo.lookup t).isSome) := by
  induction ts generalizing r with
  | nil => simp [reserveTickers]
  | cons t' ts ih =>
    have h := ih ⟨r.bbo.orInsert t' BBO.new⟩
    simp only [reserveTickers, List.foldl_cons] at h ⊢
    rw [h.1, h.2, AList.lookup_orInsert, List.mem_cons]
    by_cases ht : t = t'
    · subst ht; cases r.bbo.lookup t <;> simp
    · simp [ht]

/-! ## Quantities -/

/-- Every BBO the receiver holds has quantities that fit their `u32`. -/
def QtyFits (r : MarketDataReceiver) : Prop :=
  ∀ t b, r.bbo.lookup t = some b → b.bidQty < 2 ^ 32 ∧ b.askQty < 2 ^ 32

/-- `BBO.apply` keeps quantities within `u32` when the update's is. -/
theorem qty_lt_apply {b : BBO} {u : MarketUpdate} (hb : b.bidQty < 2 ^ 32 ∧ b.askQty < 2 ^ 32)
    (hu : u.qty < 2 ^ 32) : (b.apply u).bidQty < 2 ^ 32 ∧ (b.apply u).askQty < 2 ^ 32 := by
  dsimp only [Qty] at *
  unfold BBO.apply
  dsimp only
  split <;> (try split_ifs) <;> (try simp only [BBO.new]) <;> omega

theorem QtyFits.processUpdate {r : MarketDataReceiver} (h : r.QtyFits) {u : MarketUpdate}
    (hu : u.Fits) : (r.processUpdate u).1.QtyFits := by
  intro t b hb
  unfold MarketDataReceiver.processUpdate at hb
  split at hb
  · exact h t b hb
  · by_cases ht : t = u.tickerId
    · subst ht
      simp only [AList.lookup_insert, Option.some.injEq] at hb
      subst hb
      refine qty_lt_apply ?_ hu.2.2.2.2.2.2.2.1
      cases hl : r.bbo.lookup u.tickerId with
      | none => exact ⟨by decide, by decide⟩
      | some b => exact h _ b hl
    · exact h t b (by rwa [AList.lookup_insert_ne ht] at hb)

/-- `poll_and_process` keeps the quantities within `u32`: every update it reads fits. -/
theorem QtyFits.pollAndProcess {r : MarketDataReceiver} (h : r.QtyFits) (rs : List MulticastRecv) :
    (r.pollAndProcess rs).1.QtyFits := by
  induction rs generalizing r with
  | nil => exact h
  | cons recv rest ih =>
    simp only [MarketDataReceiver.pollAndProcess]
    cases hp : poll recv with
    | none => exact h
    | some u => exact ih (h.processUpdate ((poll_eq_some_iff recv u).mp hp).1)

theorem QtyFits.reserveTickers {r : MarketDataReceiver} (h : r.QtyFits) (ts : List TickerId) :
    (r.reserveTickers ts).QtyFits := by
  induction ts generalizing r with
  | nil => exact h
  | cons t ts ih =>
    refine @ih ⟨r.bbo.orInsert t BBO.new⟩ fun t' b hb => ?_
    rw [AList.lookup_orInsert] at hb
    split_ifs at hb with ht
    · cases hl : r.bbo.lookup t with
      | none => rw [hl] at hb; cases hb; exact ⟨by decide, by decide⟩
      | some b' => rw [hl, Option.getD_some, Option.some.injEq] at hb; exact hb ▸ h t b' hl
    · exact h t' b hb

theorem qtyFits_new : new.QtyFits := fun _ _ h => by cases h

/-! ## From the publisher to the client -/

/-- The receiver after `poll_and_process` on each batch of datagrams in turn. -/
def receiveBatches (r : MarketDataReceiver) (batches : List (List MulticastRecv)) :
    MarketDataReceiver :=
  batches.foldl (fun r batch => (r.pollAndProcess batch).1) r

/-- Reading the publisher's datagrams in any number of calls is processing its updates. -/
theorem receiveBatches_datagrams (r : MarketDataReceiver) (batches : List (List MarketUpdate))
    (h : ∀ u ∈ batches.flatten, u.Fits) :
    r.receiveBatches (batches.map datagrams) = r.processAll batches.flatten := by
  induction batches generalizing r with
  | nil => rfl
  | cons b bs ih =>
    simp only [List.flatten_cons, List.mem_append] at h
    simp only [receiveBatches, List.map_cons, List.foldl_cons, List.flatten_cons, processAll,
      List.foldl_append] at ih ⊢
    rw [(pollAndProcess_eq r _).1, polled_datagrams fun u hu => h u (.inl hu),
      ih _ fun u hu => h u (.inr hu)]
    rfl

variable {config : MarketDataPublisherConfig} {p : MarketDataPublisher} {out : List MarketUpdate}

/-- **The client tracks the publisher across the wire.** In every run of the publisher with
snapshots on and every update within its field types, a client receiver, with any tickers
reserved, that reads the publisher's datagrams in order, in any number of `poll_and_process`
calls, holds for each ticker a BBO that the publisher's state tracks: each side the client has
live is the publisher's, at the same price and quantity. -/
theorem receiver_tracks_publisher (h : MarketDataPublisher.Published config p out)
    (he : config.enableSnapshots = true) (hfit : ∀ u ∈ out, u.Fits)
    (batches : List (List MarketUpdate)) (hb : batches.flatten = out) (ts : List TickerId)
    (t : TickerId) :
    Tracks ((p.tickerState.lookup t).getD default)
      (((new.reserveTickers ts).receiveBatches (batches.map datagrams)).getBbo t |>.getD BBO.new) := by
  subst hb
  rw [getBbo, receiveBatches_datagrams _ _ hfit, processAll_getD, (reserveTickers_lookup _ _ _).1]
  exact h.tracks he t

/-- A bid for ticker 1. -/
def bidQuote : MarketUpdate := MarketUpdate.new .add 1 1 Side.buy.asSign 100 10 0

/-- An ask for ticker 1. -/
def askQuote : MarketUpdate := MarketUpdate.new .add 1 2 Side.sell.asSign 101 7 1

/-- The client, reading the two quotes in two calls, has what the publisher has. -/
theorem two_quotes_tracked :
    Tracks (((((MarketDataPublisher.new ⟨true, 0⟩).track bidQuote).track
        askQuote).tickerState.lookup 1).getD default)
      (((new.reserveTickers [1]).receiveBatches ([[bidQuote], [askQuote]].map
        datagrams)).getBbo 1 |>.getD BBO.new) :=
  @receiver_tracks_publisher ⟨true, 0⟩ _ ([] ++ [bidQuote] ++ [askQuote])
    (.track _ (by decide) (by decide) (.track _ (by decide) (by decide) .new))
    rfl (by decide) [[bidQuote], [askQuote]] rfl [1] 1

end MarketDataReceiver

end LowLatencyTrading
