import LowLatencyTrading.OrderGateway
import LowLatencyTrading.Codec

/-!
# Polling the gateway (`trading/src/order_gateway.rs`)

`poll` appends what `try_recv` returned to `recv_buffer`, cuts at most one 42-byte response off
its front, and drops that response's order from `pending_orders` when the response ends it. A
client sees its gateway as a history of events: the ids `send_new_order` returned and the
responses `poll` returned. Over every sequence of `send_new_order`, `send_cancel` and `poll`
calls, and so every way the exchange's stream is cut into the chunks `try_recv` returns:

* **no response is lost, repeated or reordered**: the responses returned so far, then the
  whole records still in `recv_buffer`, are the records of the stream received so far;
* **`pending_orders` holds the open orders**: the ids `send_new_order` issued that no
  `Canceled`, `CancelRejected`, `InvalidRequest` or `Filled` with nothing left has named
  *since it was issued* (`poll_spec`).

The gateway keeps no memory of the responses it has passed on, so a terminal response that
names an id before `send_new_order` issues it, such as the `CancelRejected` of an early
`send_cancel`, does not keep that id out of `pending_orders` (`pending_after_early_reject`).
-/

namespace LowLatencyTrading

/-! ## Response records of a stream -/

/-- The first `n` response records of `bytes`. -/
def responseRecordsN : Nat → List UInt8 → List (List UInt8)
  | 0, _ => []
  | n + 1, bytes =>
    bytes.take clientResponseSize :: responseRecordsN n (bytes.drop clientResponseSize)

/-- The consecutive `CLIENT_RESPONSE_SIZE`-byte records at the front of `bytes`; a trailing
partial record is left out. -/
def responseRecords (bytes : List UInt8) : List (List UInt8) :=
  responseRecordsN (bytes.length / clientResponseSize) bytes

theorem responseRecordsN_append {a : List UInt8} {m : Nat}
    (h : a.length = clientResponseSize * m) (n : Nat) (b : List UInt8) :
    responseRecordsN (m + n) (a ++ b) = responseRecordsN m a ++ responseRecordsN n b := by
  induction m generalizing a with
  | zero => rw [List.eq_nil_of_length_eq_zero h]; simp [responseRecordsN]
  | succ m ih =>
    have hle : clientResponseSize ≤ a.length := by rw [h]; simp only [clientResponseSize]; omega
    rw [Nat.succ_add, responseRecordsN, responseRecordsN, List.take_append_of_le_length hle,
      List.drop_append_of_le_length hle,
      ih (by simp only [List.length_drop, h, clientResponseSize]; omega)]
    rfl

/-- Whole records first: their records come first. -/
theorem responseRecords_append {a : List UInt8} (h : a.length % clientResponseSize = 0)
    (b : List UInt8) : responseRecords (a ++ b) = responseRecords a ++ responseRecords b := by
  unfold responseRecords
  rw [← responseRecordsN_append (by simp only [clientResponseSize] at h ⊢; omega)]
  congr 1
  simp only [List.length_append, clientResponseSize] at h ⊢
  omega

theorem responseRecords_of_length {a : List UInt8} (h : a.length = clientResponseSize) :
    responseRecords a = [a] := by
  rw [responseRecords, h, Nat.div_self (by decide), responseRecordsN, responseRecordsN,
    List.take_of_length_le h.le]

/-! ## One step of `poll` -/

/-- The spec's terminal responses: `Canceled`, `CancelRejected`, `InvalidRequest`, or `Filled`
with `leaves_qty == 0`. -/
def ClientResponse.Terminal (r : ClientResponse) : Prop :=
  r.responseType = some .canceled ∨ r.responseType = some .cancelRejected ∨
    r.responseType = some .invalidRequest ∨ (r.responseType = some .filled ∧ r.leavesQty = 0)

instance : DecidablePred ClientResponse.Terminal := fun _ =>
  inferInstanceAs (Decidable (_ ∨ _))

namespace OrderGateway

@[simp] theorem updatePending_recvBuffer (g : OrderGateway) (r : ClientResponse) :
    (g.updatePending r).recvBuffer = g.recvBuffer := by
  unfold updatePending
  split <;> (try split) <;> rfl

/-- `poll` drops exactly the order a terminal response names. -/
theorem mem_updatePending {g : OrderGateway} {r : ClientResponse} {id : OrderId} :
    id ∈ (g.updatePending r).pendingOrders ↔
      id ∈ g.pendingOrders ∧ ¬(r.clientOrderId = id ∧ r.Terminal) := by
  have erased : id ∈ g.pendingOrders.erase r.clientOrderId ↔
      id ∈ g.pendingOrders ∧ ¬r.clientOrderId = id := by
    rw [AList.mem_erase, and_comm, ne_comm]
  unfold updatePending ClientResponse.Terminal
  rcases r.responseType with _ | ⟨_ | _ | _ | _ | _⟩ <;> dsimp only
  case some.filled => by_cases hl : r.leavesQty = 0 <;> simp [hl, erased]
  all_goals simp [erased]

/-- **What one `poll` does.** A failed `try_recv` changes nothing; otherwise the bytes join the
buffer, and once it holds a whole record the first is cut off, decoded and returned. -/
theorem poll_cases (g : OrderGateway) (recv : RecvResult) :
    (recv.bytes = [] ∧ g.poll recv = (g, none)) ∨
      ((g.recvBuffer ++ recv.bytes).length < clientResponseSize ∧
        g.poll recv = ({ g with recvBuffer := g.recvBuffer ++ recv.bytes }, none)) ∨
      (clientResponseSize ≤ (g.recvBuffer ++ recv.bytes).length ∧
        g.poll recv =
          ({ g with recvBuffer := (g.recvBuffer ++ recv.bytes).drop clientResponseSize
            }.updatePending
              (ClientResponse.decode ((g.recvBuffer ++ recv.bytes).take clientResponseSize)),
            some (ClientResponse.decode
              ((g.recvBuffer ++ recv.bytes).take clientResponseSize)))) := by
  cases recv
  case wouldBlock | error => exact .inl ⟨rfl, rfl⟩
  all_goals
    refine .inr ((Nat.lt_or_ge _ _).imp (fun hl => ⟨hl, ?_⟩) fun hl => ⟨hl, ?_⟩)
    · simp only [poll, if_neg (Nat.not_le.mpr hl)]
    · simp only [poll, if_pos hl, ClientResponse.fromBytes, List.length_take_of_le hl,
        ↓reduceIte]

/-! ## Runs of calls -/

/-- What a client sees of its gateway: an id `send_new_order` returned, or a response `poll`
returned. -/
inductive Event where
  | issued (orderId : OrderId)
  | returned (response : ClientResponse)
  deriving DecidableEq, Repr

/-- A call on the gateway; a `poll` carries what its `try_recv` returns. -/
inductive Call where
  | sendNewOrder (tickerId : TickerId) (side : Side) (price : Price) (qty : Qty)
  | sendCancel (orderId : OrderId) (tickerId : TickerId)
  | poll (recv : RecvResult)
  deriving DecidableEq, Repr

/-- The bytes of the exchange's stream a call receives. -/
def Call.bytes : Call → List UInt8
  | .poll recv => recv.bytes
  | _ => []

/-- One call: the gateway after it and the events it shows. `send_cancel` only sends. -/
def call (g : OrderGateway) : Call → OrderGateway × List Event
  | .sendNewOrder t side price qty =>
    let sent := g.sendNewOrder t side price qty
    (sent.1, [.issued sent.2.1])
  | .sendCancel _ _ => (g, [])
  | .poll recv =>
    let polled := g.poll recv
    (polled.1, polled.2.toList.map .returned)

/-- The calls one after another: the gateway after them and the events they showed. -/
def run (g : OrderGateway) : List Call → OrderGateway × List Event
  | [] => (g, [])
  | k :: ks =>
    let rest := (g.call k).1.run ks
    (rest.1, (g.call k).2 ++ rest.2)

/-- The stream the calls received: their chunks, in order. -/
def received (calls : List Call) : List UInt8 := (calls.map Call.bytes).flatten

/-- The responses among the events. -/
def responses (evs : List Event) : List ClientResponse :=
  evs.filterMap fun
    | .returned r => some r
    | .issued _ => none

@[simp] theorem responses_append (evs evs' : List Event) :
    responses (evs ++ evs') = responses evs ++ responses evs' :=
  List.filterMap_append _ _ _

/-- Order `id` is open after `evs`: it was issued, and no terminal response has named it
since. -/
def OpenIn (evs : List Event) (id : OrderId) : Prop :=
  ∃ pre post, evs = pre ++ .issued id :: post ∧
    ∀ r, .returned r ∈ post → r.clientOrderId = id → ¬r.Terminal

theorem not_openIn_nil (id : OrderId) : ¬OpenIn [] id := by
  rintro ⟨pre, post, h, -⟩
  simp at h

/-- One more event: it issues `id`, or `id` was open and the event does not end it. -/
theorem openIn_append_singleton {evs : List Event} {id : OrderId} (e : Event) :
    OpenIn (evs ++ [e]) id ↔
      e = .issued id ∨ (OpenIn evs id ∧ ∀ r, e = .returned r → r.clientOrderId = id → ¬r.Terminal) := by
  constructor
  · rintro ⟨pre, post, he, hpost⟩
    rcases List.eq_nil_or_concat post with rfl | ⟨post, e', rfl⟩
    · rw [List.append_cons pre, List.append_nil] at he
      exact .inl (List.singleton_inj.mp (List.append_inj' he rfl).2)
    · rw [List.concat_eq_append, ← List.cons_append, ← List.append_assoc] at he
      obtain ⟨hpre, hlast⟩ := List.append_inj' he rfl
      obtain rfl := List.singleton_inj.mp hlast
      exact .inr ⟨⟨pre, post, hpre, fun r hr => hpost r (by simp [hr])⟩,
        fun r hr => hpost r (by simp [hr])⟩
  · rintro (rfl | ⟨⟨pre, post, rfl, hpost⟩, he⟩)
    · exact ⟨evs, [], rfl, by simp⟩
    · refine ⟨pre, post ++ [e], by simp, fun r hr => ?_⟩
      rcases List.mem_append.mp hr with hr | hr
      · exact hpost r hr
      · exact he r (List.mem_singleton.mp hr).symm

/-- What a client's calls have done to its gateway: the stream received so far is whole records
`done`, whose responses were returned in order, then the buffer; and the pending orders are
the open ones. -/
structure Polled (g : OrderGateway) (stream : List UInt8) (evs : List Event) : Prop where
  framed : ∃ done, stream = done ++ g.recvBuffer ∧ done.length % clientResponseSize = 0 ∧
    responses evs = (responseRecords done).map ClientResponse.decode
  pending : ∀ id, id ∈ g.pendingOrders ↔ OpenIn evs id

theorem Polled.connect (c : ClientId) : Polled (connect c) [] [] where
  framed := ⟨[], rfl, rfl, rfl⟩
  pending id := iff_of_false (AList.not_mem_empty id) (not_openIn_nil id)

section Polled

variable {g : OrderGateway} {stream : List UInt8} {evs : List Event}

theorem Polled.sendNewOrder (h : Polled g stream evs) (t : TickerId) (side : Side)
    (price : Price) (qty : Qty) :
    Polled (g.sendNewOrder t side price qty).1 stream (evs ++ [.issued g.nextOrderId]) where
  framed := by simpa [responses] using h.framed
  pending id := by
    rw [openIn_append_singleton, ← h.pending]
    simp [OrderGateway.sendNewOrder, AList.mem_insert, eq_comm]

theorem Polled.poll (h : Polled g stream evs) (recv : RecvResult) :
    Polled (g.poll recv).1 (stream ++ recv.bytes)
      (evs ++ ((g.poll recv).2.toList.map .returned)) := by
  obtain ⟨⟨done, rfl, hd, hr⟩, hp⟩ := h
  rcases poll_cases g recv with ⟨hb, hq⟩ | ⟨-, hq⟩ | ⟨hl, hq⟩ <;> rw [hq]
  · exact ⟨⟨done, by simp [hb], hd, by simpa using hr⟩, by simpa using hp⟩
  · exact ⟨⟨done, by simp, hd, by simpa using hr⟩, by simpa using hp⟩
  · set buf := g.recvBuffer ++ recv.bytes
    have hrec : (buf.take clientResponseSize).length = clientResponseSize :=
      List.length_take_of_le hl
    refine ⟨⟨done ++ buf.take clientResponseSize, ?_, ?_, ?_⟩, fun id => ?_⟩
    · simp [buf]
    · rw [List.length_append, hrec, Nat.add_mod_right, hd]
    · simp only [Option.toList_some, List.map_cons, List.map_nil, responses_append, hr,
        responseRecords_append hd, responseRecords_of_length hrec, List.map_append]
      rfl
    · simp only [Option.toList_some, List.map_cons, List.map_nil, openIn_append_singleton,
        mem_updatePending, hp, reduceCtorEq, Event.returned.injEq, false_or, forall_eq', not_and]

/-- One call keeps the gateway `Polled`. -/
theorem Polled.call (h : Polled g stream evs) (k : Call) :
    Polled (g.call k).1 (stream ++ k.bytes) (evs ++ (g.call k).2) := by
  cases k with
  | sendNewOrder t side price qty =>
    simpa only [Call.bytes, List.append_nil] using h.sendNewOrder t side price qty
  | sendCancel => simpa [OrderGateway.call, Call.bytes] using h
  | poll recv => exact h.poll recv

theorem Polled.run (h : Polled g stream evs) (calls : List Call) :
    Polled (g.run calls).1 (stream ++ received calls) (evs ++ (g.run calls).2) := by
  induction calls generalizing g stream evs with
  | nil => simpa [OrderGateway.run, received] using h
  | cons k ks ih =>
    simpa [OrderGateway.run, received, List.append_assoc] using ih (h.call k)

end Polled

/-- **Polling frames the stream and tracks the open orders.** For every client and every
sequence of `send_new_order`, `send_cancel` and `poll` calls, whatever chunks `try_recv`
returns: the responses `poll` returned, then the whole records left in `recv_buffer`, decoded,
are the records of the stream received so far, decoded; and an id is in `pending_orders`
exactly when `send_new_order` issued it and no terminal response has named it since. -/
theorem poll_spec (c : ClientId) (calls : List Call) :
    responses ((connect c).run calls).2 ++
        (responseRecords ((connect c).run calls).1.recvBuffer).map ClientResponse.decode =
      (responseRecords (received calls)).map ClientResponse.decode ∧
      ∀ id, id ∈ ((connect c).run calls).1.pendingOrders ↔ OpenIn ((connect c).run calls).2 id := by
  obtain ⟨⟨done, hs, hd, hr⟩, hp⟩ := (Polled.connect c).run calls
  refine ⟨?_, hp⟩
  rw [List.nil_append] at hs
  rw [List.nil_append] at hr
  rw [hs, responseRecords_append hd, List.map_append, hr]

/-- A `CancelRejected` for order 1, as the exchange answers a cancel of an id it does not hold. -/
def rejectOne : ClientResponse := ClientResponse.new .cancelRejected 1 1 1 0 0 0 0 0

/-- Client 1 cancels order 1 before issuing it, polls the rejection, then issues order 1. -/
def earlyReject : List Call :=
  [.sendCancel 1 1, .poll (.data rejectOne.asBytes), .sendNewOrder 1 .buy 100 10]

/-- **A response before the issue does not count.** After `earlyReject`, `poll` has returned a
`CancelRejected` naming order 1, and `send_new_order` has issued order 1 since; order 1 is
pending. -/
theorem pending_after_early_reject :
    Event.returned rejectOne ∈ ((connect 1).run earlyReject).2 ∧ rejectOne.clientOrderId = 1 ∧
      rejectOne.Terminal ∧ Event.issued 1 ∈ ((connect 1).run earlyReject).2 ∧
      1 ∈ ((connect 1).run earlyReject).1.pendingOrders := by
  decide

end OrderGateway

end LowLatencyTrading
