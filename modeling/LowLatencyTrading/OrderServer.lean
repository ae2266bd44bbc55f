import LowLatencyTrading.Protocol

/-!
# The order server (`exchange/src/order_server.rs`)

`poll` accepts pending connections, then visits every connected client once, in the map's
iteration order: `ClientConnection::receive` appends what `try_recv` returned to the client's
`recv_buffer` and cuts whole 30-byte records off its front, each of which gets the next number
of the FIFO sequencer. The sockets are left out: what `accept` and `try_recv` return is the
input of `poll`, and the iteration order is part of that input.

The parsing loop would skip one byte when `from_bytes` refuses a slice, but `from_bytes`
accepts every slice of the record's size, so every client's requests are the records of its
byte stream (`Reachable.requests`).
-/

namespace LowLatencyTrading

/-- What `TcpSocket::try_recv` returned to `receive`. -/
inductive RecvResult where
  /-- `Ok(Some(data))`; empty data is a closed connection. -/
  | data (bytes : List UInt8)
  /-- `Ok(None)`. -/
  | empty
  /-- `Err(e)` of kind `WouldBlock`. -/
  | wouldBlock
  /-- Any other `Err(e)`. -/
  | error
  deriving DecidableEq, Repr

/-- The bytes a `try_recv` result delivers. -/
def RecvResult.bytes : RecvResult → List UInt8
  | .data bytes => bytes
  | _ => []

/-! ## Records of a stream -/

/-- The first `n` records of `bytes`. -/
def recordsN : Nat → List UInt8 → List (List UInt8)
  | 0, _ => []
  | n + 1, bytes => bytes.take clientRequestSize :: recordsN n (bytes.drop clientRequestSize)

/-- The consecutive `CLIENT_REQUEST_SIZE`-byte records at the front of `bytes`; a trailing
partial record is left out. -/
def records (bytes : List UInt8) : List (List UInt8) :=
  recordsN (bytes.length / clientRequestSize) bytes

/-- The bytes after the last whole record of `bytes`. -/
def trailing (bytes : List UInt8) : List UInt8 :=
  bytes.drop (bytes.length - bytes.length % clientRequestSize)

theorem recordsN_append {a : List UInt8} {m : Nat} (h : a.length = clientRequestSize * m)
    (n : Nat) (b : List UInt8) : recordsN (m + n) (a ++ b) = recordsN m a ++ recordsN n b := by
  induction m generalizing a with
  | zero => rw [List.eq_nil_of_length_eq_zero h]; simp [recordsN]
  | succ m ih =>
    have hle : clientRequestSize ≤ a.length := by rw [h]; simp only [clientRequestSize]; omega
    rw [Nat.succ_add, recordsN, recordsN, List.take_append_of_le_length hle,
      List.drop_append_of_le_length hle,
      ih (by simp only [List.length_drop, h, clientRequestSize]; omega)]
    rfl

/-- Whole records first: their records come first. -/
theorem records_append {a : List UInt8} (h : a.length % clientRequestSize = 0) (b : List UInt8) :
    records (a ++ b) = records a ++ records b := by
  unfold records
  rw [← recordsN_append (by simp only [clientRequestSize] at h ⊢; omega)]
  congr 1
  simp only [List.length_append, clientRequestSize] at h ⊢
  omega

theorem records_of_lt {bytes : List UInt8} (h : bytes.length < clientRequestSize) :
    records bytes = [] := by
  simp [records, Nat.div_eq_of_lt h, recordsN]

theorem records_of_le {bytes : List UInt8} (h : clientRequestSize ≤ bytes.length) :
    records bytes = bytes.take clientRequestSize :: records (bytes.drop clientRequestSize) := by
  unfold records
  rw [show bytes.length / clientRequestSize =
      (bytes.drop clientRequestSize).length / clientRequestSize + 1 by
    simp only [List.length_drop, clientRequestSize] at h ⊢; omega]
  rfl

theorem trailing_append {a : List UInt8} (h : a.length % clientRequestSize = 0) (b : List UInt8) :
    trailing (a ++ b) = trailing b := by
  unfold trailing
  rw [show (a ++ b).length - (a ++ b).length % clientRequestSize =
      a.length + (b.length - b.length % clientRequestSize) by
    simp only [List.length_append, clientRequestSize] at h ⊢; omega, List.drop_append]

theorem trailing_of_lt {bytes : List UInt8} (h : bytes.length < clientRequestSize) :
    trailing bytes = bytes := by
  simp [trailing, Nat.mod_eq_of_lt h]

/-- A stream is its whole records, then its trailing bytes. -/
theorem take_append_trailing (s : List UInt8) :
    s.take (s.length - s.length % clientRequestSize) ++ trailing s = s :=
  List.take_append_drop _ _

theorem length_take_trailing (s : List UInt8) :
    (s.take (s.length - s.length % clientRequestSize)).length % clientRequestSize = 0 := by
  simp only [List.length_take, clientRequestSize]; omega

/-- **Appending to the trailing bytes is appending to the stream**: the records already cut off
and those of the trailing bytes with new data are the records of the longer stream, and the
trailing bytes agree. -/
theorem records_trailing_append (s x : List UInt8) :
    records s ++ records (trailing s ++ x) = records (s ++ x) ∧
      trailing (trailing s ++ x) = trailing (s ++ x) := by
  have ht : (trailing s).length < clientRequestSize := by
    simp only [trailing, List.length_drop, clientRequestSize]; omega
  have hs := take_append_trailing s
  have ha := length_take_trailing s
  generalize trailing s = t at ht hs ⊢
  generalize s.take (s.length - s.length % clientRequestSize) = a at ha hs
  subst hs
  rw [List.append_assoc, records_append ha, records_append ha, records_of_lt ht,
    trailing_append ha, List.append_nil]
  exact ⟨rfl, rfl⟩

theorem trailing_drop {bytes : List UInt8} (h : clientRequestSize ≤ bytes.length) :
    trailing bytes = trailing (bytes.drop clientRequestSize) := by
  conv => lhs; rw [← List.take_append_drop clientRequestSize bytes]
  exact trailing_append (by simp only [List.length_take, clientRequestSize] at h ⊢; omega) _

/-! ## One connection -/

/-- `ClientConnection`, without its socket. -/
structure ClientConnection where
  clientId : ClientId
  recvBuffer : List UInt8

namespace ClientConnection

/-- `ClientConnection::new`. -/
def new (clientId : ClientId) : ClientConnection := ⟨clientId, []⟩

/-- The parsing loop of `receive` (`while recv_buffer.len() >= CLIENT_REQUEST_SIZE`), for at
most `fuel` rounds: a record that `from_bytes` accepts is pushed and drained, otherwise one byte
is drained. Each round drains a byte or more, so the buffer's length is fuel enough. -/
def parseRequests : Nat → List UInt8 → List ClientRequest × List UInt8
  | 0, buf => ([], buf)
  | fuel + 1, buf =>
    if clientRequestSize ≤ buf.length then
      match ClientRequest.fromBytes (buf.take clientRequestSize) with
      | some request =>
        let rest := parseRequests fuel (buf.drop clientRequestSize)
        (request :: rest.1, rest.2)
      | none => parseRequests fuel (buf.drop 1)
    else ([], buf)

/-- The requests parsed from `buf`, and the connection left holding what remains. -/
def parse (c : ClientConnection) (buf : List UInt8) : ClientConnection × List ClientRequest :=
  let parsed := parseRequests buf.length buf
  ({ c with recvBuffer := parsed.2 }, parsed.1)

/-- `ClientConnection::receive`; `none` is its `Err`, on which `poll` drops the client. -/
def receive (c : ClientConnection) (recv : RecvResult) :
    Option (ClientConnection × List ClientRequest) :=
  match recv with
  | .data [] => none
  | .data bytes => some (c.parse (c.recvBuffer ++ bytes))
  | .empty | .wouldBlock => some (c.parse c.recvBuffer)
  | .error => none

/-- **The loop cuts every whole record**: it returns the records of the buffer, decoded, and
leaves the trailing bytes; the one-byte skip is never taken. -/
theorem parseRequests_eq {n : Nat} {buf : List UInt8} (h : buf.length ≤ n) :
    parseRequests n buf = ((records buf).map ClientRequest.decode, trailing buf) := by
  induction n generalizing buf with
  | zero =>
    rw [List.eq_nil_of_length_eq_zero (Nat.le_zero.mp h)]
    rfl
  | succ n ih =>
    unfold parseRequests
    split
    · rename_i hle
      rw [ClientRequest.fromBytes_eq_some (by simp [hle])]
      dsimp only
      rw [ih (by simp only [List.length_drop, clientRequestSize] at hle ⊢; omega),
        records_of_le hle, trailing_drop hle, List.map_cons]
    · rename_i hlt
      rw [records_of_lt (Nat.lt_of_not_le hlt), trailing_of_lt (Nat.lt_of_not_le hlt)]
      rfl

/-- `receive` after a stream `s` whose trailing bytes are buffered: the connection then buffers
the trailing bytes of the stream with the new data, and the requests returned are the records
that the new data completes. -/
theorem receive_spec {c c' : ClientConnection} {s : List UInt8} {recv : RecvResult}
    {requests : List ClientRequest} (hb : c.recvBuffer = trailing s)
    (h : c.receive recv = some (c', requests)) :
    c'.recvBuffer = trailing (s ++ recv.bytes) ∧
      (records s).map ClientRequest.decode ++ requests =
        (records (s ++ recv.bytes)).map ClientRequest.decode := by
  have hp : ∀ x, c.parse (c.recvBuffer ++ x) = ({ c with recvBuffer := trailing (s ++ x) },
      (records (trailing s ++ x)).map ClientRequest.decode) := fun x => by
    rw [parse, parseRequests_eq le_rfl, hb, (records_trailing_append s x).2]
  have hr := fun x => congrArg (List.map ClientRequest.decode) (records_trailing_append s x).1
  simp only [List.map_append] at hr
  have hp0 : c.parse c.recvBuffer = ({ c with recvBuffer := trailing (s ++ []) },
      (records (trailing s ++ [])).map ClientRequest.decode) := by
    rw [← hp, List.append_nil]
  cases recv with
  | data bytes =>
    cases bytes with
    | nil => simp [receive] at h
    | cons b bs =>
      simp only [receive, hp, Option.some.injEq, Prod.mk.injEq] at h
      obtain ⟨rfl, rfl⟩ := h
      exact ⟨rfl, hr _⟩
  | empty | wouldBlock =>
    simp only [receive, hp0, Option.some.injEq, Prod.mk.injEq] at h
    obtain ⟨rfl, rfl⟩ := h
    exact ⟨rfl, hr []⟩
  | error => simp [receive] at h

theorem receive_none_bytes {c : ClientConnection} {recv : RecvResult} (h : c.receive recv = none) :
    recv.bytes = [] := by
  unfold receive at h
  split at h <;> first | rfl | cases h

end ClientConnection

/-! ## The server -/

/-- `SequencedRequest`. -/
structure SequencedRequest where
  sequenceNumber : Nat
  clientId : ClientId
  request : ClientRequest

/-- `OrderServer`, without its listener and configuration; `nextSeq` is the sequencer's
`next_seq`. -/
structure OrderServer where
  clients : HashMap ClientId ClientConnection
  nextSeq : Nat
  nextClientId : ClientId

namespace OrderServer

/-- `OrderServer::new`, once the listener is bound. -/
def new : OrderServer := ⟨∅, 1, 1⟩

/-- `accept_connections`, given the sockets `accept` returned before its first `Err`: each takes
the next client id, and one whose `set_nonblocking` fails (`false`) is dropped. -/
def acceptConnections (s : OrderServer) : List Bool → OrderServer
  | [] => s
  | ok :: rest =>
    let clientId := s.nextClientId
    let s := { s with nextClientId := s.nextClientId + 1 }
    (if ok then { s with clients := s.clients.insert clientId (ClientConnection.new clientId) }
     else s).acceptConnections rest

/-- The requests of one client numbered from `next`, one `sequencer.next()` each. -/
def sequenceRequests (next : Nat) (clientId : ClientId) : List ClientRequest → List SequencedRequest
  | [] => []
  | r :: rs => ⟨next, clientId, r⟩ :: sequenceRequests (next + 1) clientId rs

/-- The receive loop of `poll`, over `(client_id, what try_recv returned)` in iteration order:
the server after it, the sequenced requests, and the clients to disconnect. -/
def receiveAll (s : OrderServer) :
    List (ClientId × RecvResult) → OrderServer × List SequencedRequest × List ClientId
  | [] => (s, [], [])
  | (clientId, recv) :: rest =>
    match s.clients.lookup clientId with
    | none => s.receiveAll rest
    | some conn =>
      match conn.receive recv with
      | some (conn, requests) =>
        let seqd := sequenceRequests s.nextSeq clientId requests
        let r := ({ s with clients := s.clients.insert clientId conn,
                           nextSeq := s.nextSeq + requests.length } : OrderServer).receiveAll rest
        (r.1, seqd ++ r.2.1, r.2.2)
      | none =>
        let r := s.receiveAll rest
        (r.1, r.2.1, clientId :: r.2.2)

/-- `OrderServer::poll`: accept, receive from every client, drop the disconnected ones, and
sort by sequence number (`sort_by_key`, stable). -/
def poll (s : OrderServer) (accepted : List Bool) (recvs : List (ClientId × RecvResult)) :
    OrderServer × List SequencedRequest :=
  let r := (s.acceptConnections accepted).receiveAll recvs
  ({ r.1 with clients := r.2.2.foldl (fun m c => m.erase c) r.1.clients },
    r.2.1.mergeSort fun a b => a.sequenceNumber ≤ b.sequenceNumber)

/-! ## Runs -/

/-- The bytes delivered to each client, once the results `recvs` are delivered too. -/
def deliver (d : ClientId → List UInt8) (recvs : List (ClientId × RecvResult)) :
    ClientId → List UInt8 :=
  recvs.foldl (fun d p => Function.update d p.1 (d p.1 ++ p.2.bytes)) d

/-- What the server has returned, against the bytes `d` delivered to each client: each client's
requests are the records of its bytes, each buffer holds the trailing bytes, the numbers run
`1, 2, 3, ...`, and the ids from `next_client_id` on are unused. -/
structure Inv (s : OrderServer) (d : ClientId → List UInt8) (out : List SequencedRequest) :
    Prop where
  requests : ∀ c, (out.filter (·.clientId = c)).map (·.request) =
    (records (d c)).map ClientRequest.decode
  buffer : ∀ c conn, s.clients.lookup c = some conn → conn.recvBuffer = trailing (d c)
  seq : out.map (·.sequenceNumber) = List.range' 1 out.length
  next_seq : s.nextSeq = out.length + 1
  fresh : ∀ c, s.nextClientId ≤ c → d c = [] ∧ c ∉ s.clients

theorem new_inv : new.Inv (fun _ => []) [] where
  requests _ := rfl
  buffer _ _ h := by simp [new, AList.lookup_empty] at h
  seq := rfl
  next_seq := rfl
  fresh _ _ := ⟨rfl, AList.not_mem_empty _⟩

@[simp] theorem map_sequenceRequests (next : Nat) (c : ClientId) (rs : List ClientRequest) :
    (sequenceRequests next c rs).map (·.sequenceNumber) = List.range' next rs.length := by
  induction rs generalizing next with
  | nil => rfl
  | cons r rs ih => simp [sequenceRequests, ih, List.range'_succ]

@[simp] theorem length_sequenceRequests (next : Nat) (c : ClientId) (rs : List ClientRequest) :
    (sequenceRequests next c rs).length = rs.length := by
  induction rs generalizing next with
  | nil => rfl
  | cons r rs ih => simp [sequenceRequests, ih]

theorem filter_sequenceRequests (next : Nat) (c c' : ClientId) (rs : List ClientRequest) :
    ((sequenceRequests next c rs).filter (·.clientId = c')).map (·.request) =
      if c = c' then rs else [] := by
  induction rs generalizing next with
  | nil => split <;> rfl
  | cons r rs ih =>
    simp only [sequenceRequests, List.filter_cons, ih]
    split <;> simp_all

/-- One client's `receive`, when it succeeds. -/
theorem Inv.receive {s : OrderServer} {d : ClientId → List UInt8} {out : List SequencedRequest}
    (h : s.Inv d out) {c : ClientId} {conn conn' : ClientConnection} {recv : RecvResult}
    {rs : List ClientRequest} (hl : s.clients.lookup c = some conn)
    (hr : conn.receive recv = some (conn', rs)) :
    ({ s with clients := s.clients.insert c conn', nextSeq := s.nextSeq + rs.length } :
      OrderServer).Inv (Function.update d c (d c ++ recv.bytes))
      (out ++ sequenceRequests s.nextSeq c rs) where
  requests c' := by
    have hspec := ClientConnection.receive_spec (h.buffer c conn hl) hr
    rw [List.filter_append, List.map_append, h.requests, filter_sequenceRequests]
    by_cases hc : c = c'
    · subst hc; simp [hspec.2]
    · simp [hc, Function.update_noteq (Ne.symm hc)]
  buffer c' conn'' hl' := by
    by_cases hc : c' = c
    · subst hc
      simp only [AList.lookup_insert, Option.some.injEq] at hl'
      subst hl'
      simpa using (ClientConnection.receive_spec (h.buffer c' conn hl) hr).1
    · rw [AList.lookup_insert_ne hc] at hl'
      rw [Function.update_noteq hc]
      exact h.buffer c' conn'' hl'
  seq := by
    rw [List.map_append, h.seq, map_sequenceRequests, h.next_seq, List.length_append,
      length_sequenceRequests, Nat.add_comm out.length 1, List.range'_append_1, Nat.add_comm]
  next_seq := by simp only [h.next_seq, List.length_append, length_sequenceRequests]; omega
  fresh c' hc' := by
    have hne : c' ≠ c := fun e => (h.fresh c' hc').2 (e ▸ AList.lookup_isSome.mp (by simp [hl]))
    refine ⟨by rw [Function.update_noteq hne]; exact (h.fresh c' hc').1, ?_⟩
    rw [AList.mem_insert, not_or]
    exact ⟨hne, (h.fresh c' hc').2⟩

/-- The receive loop keeps the invariant when every client it visits is connected. -/
theorem Inv.receiveAll {recvs : List (ClientId × RecvResult)} :
    ∀ {s : OrderServer} {d : ClientId → List UInt8} {out : List SequencedRequest},
    s.Inv d out → (∀ p ∈ recvs, p.1 ∈ s.clients) →
      (s.receiveAll recvs).1.Inv (deliver d recvs) (out ++ (s.receiveAll recvs).2.1) ∧
        (∀ c ∈ s.clients, c ∈ (s.receiveAll recvs).1.clients) := by
  induction recvs with
  | nil => exact fun h _ => ⟨by simpa [OrderServer.receiveAll, deliver] using h, fun _ hc => hc⟩
  | cons p rest ih =>
    intro s d out h hv
    obtain ⟨c, recv⟩ := p
    obtain ⟨conn, hl⟩ := Option.isSome_iff_exists.mp
      (AList.lookup_isSome.mpr (hv _ (List.mem_cons_self _ _)))
    have hrest : ∀ p ∈ rest, p.1 ∈ s.clients := fun p hp => hv p (List.mem_cons_of_mem _ hp)
    cases hr : conn.receive recv with
    | none =>
      have hd : Function.update d c (d c ++ recv.bytes) = d := by
        rw [ClientConnection.receive_none_bytes hr, List.append_nil, Function.update_eq_self]
      simp only [OrderServer.receiveAll, hl, hr, deliver, List.foldl_cons]
      rw [hd]
      exact ih h hrest
    | some x =>
      obtain ⟨conn', rs⟩ := x
      have hmem : ∀ c' ∈ s.clients, c' ∈ s.clients.insert c conn' :=
        fun c' hc' => AList.mem_insert _ |>.mpr (.inr hc')
      obtain ⟨hi, hk⟩ := ih (h.receive hl hr) fun p hp => hmem _ (hrest p hp)
      simp only [OrderServer.receiveAll, hl, hr, deliver, List.foldl_cons, ← List.append_assoc]
      exact ⟨hi, fun c' hc' => hk c' (hmem c' hc')⟩

theorem Inv.acceptConnections {accepted : List Bool} :
    ∀ {s : OrderServer} {d : ClientId → List UInt8} {out : List SequencedRequest},
    s.Inv d out → (s.acceptConnections accepted).Inv d out := by
  induction accepted with
  | nil => exact fun h => h
  | cons ok rest ih =>
    intro s d out h
    apply ih
    have hfresh := h.fresh s.nextClientId le_rfl
    split
    · refine ⟨h.requests, fun c conn hl => ?_, h.seq, h.next_seq, fun c hc => ?_⟩
      · by_cases hc : c = s.nextClientId
        · subst hc
          simp only [AList.lookup_insert, Option.some.injEq] at hl
          simp [← hl, ClientConnection.new, hfresh.1, trailing]
        · rw [AList.lookup_insert_ne hc] at hl; exact h.buffer c conn hl
      · refine ⟨(h.fresh c (Nat.le_of_succ_le hc)).1, ?_⟩
        rw [AList.mem_insert, not_or]
        exact ⟨fun e => by rw [e] at hc; exact Nat.not_succ_le_self _ hc,
          (h.fresh c (Nat.le_of_succ_le hc)).2⟩
    · exact ⟨h.requests, h.buffer, h.seq, h.next_seq,
        fun c hc => h.fresh c (Nat.le_of_succ_le hc)⟩

theorem Inv.erase {s : OrderServer} {d : ClientId → List UInt8} {out : List SequencedRequest}
    (h : s.Inv d out) (cs : List ClientId) :
    ({ s with clients := cs.foldl (fun m c => m.erase c) s.clients } : OrderServer).Inv d out := by
  induction cs generalizing s with
  | nil => exact h
  | cons c cs ih =>
    refine ih (s := { s with clients := s.clients.erase c })
      ⟨h.requests, fun c' conn hl => ?_, h.seq, h.next_seq, fun c' hc => ?_⟩
    · by_cases hc : c' = c
      · subst hc; simp [AList.lookup_erase] at hl
      · rw [AList.lookup_erase_ne hc] at hl; exact h.buffer c' conn hl
    · exact ⟨(h.fresh c' hc).1, fun hm => (h.fresh c' hc).2 (AList.mem_erase.mp hm).2⟩

/-- Requests numbered one after another are already sorted: `sort_by_key` leaves them. -/
theorem mergeSort_of_seq {out acc : List SequencedRequest}
    (h : (out ++ acc).map (·.sequenceNumber) = List.range' 1 (out ++ acc).length) :
    acc.mergeSort (fun a b => a.sequenceNumber ≤ b.sequenceNumber) = acc := by
  apply List.mergeSort_of_sorted
  rw [show List.range' 1 (out ++ acc).length =
      List.range' 1 out.length ++ List.range' (1 + out.length) acc.length by
    rw [List.range'_append_1, List.length_append, Nat.add_comm], List.map_append] at h
  have hacc := List.append_inj_right' h (by simp)
  have := List.pairwise_lt_range' (1 + out.length) acc.length
  rw [← hacc, List.pairwise_map] at this
  exact this.imp fun hab => by simpa using Nat.le_of_lt hab

theorem Inv.poll {s : OrderServer} {d : ClientId → List UInt8} {out : List SequencedRequest}
    (h : s.Inv d out) (accepted : List Bool) (recvs : List (ClientId × RecvResult))
    (hv : ∀ p ∈ recvs, p.1 ∈ (s.acceptConnections accepted).clients) :
    (s.poll accepted recvs).1.Inv (deliver d recvs) (out ++ (s.poll accepted recvs).2) := by
  have hr := (h.acceptConnections.receiveAll hv).1
  simp only [OrderServer.poll, mergeSort_of_seq hr.seq]
  exact hr.erase _

/-- The servers a run of `poll` calls reaches from `OrderServer::new`, with the bytes delivered
to each client and every request returned: each poll accepts some connections and visits
connected clients with what their sockets returned. -/
inductive Reachable : OrderServer → (ClientId → List UInt8) → List SequencedRequest → Prop
  | new : Reachable OrderServer.new (fun _ => []) []
  | poll {s : OrderServer} {d : ClientId → List UInt8} {out : List SequencedRequest}
      (accepted : List Bool) (recvs : List (ClientId × RecvResult))
      (hv : ∀ p ∈ recvs, p.1 ∈ (s.acceptConnections accepted).clients) :
      Reachable s d out →
        Reachable (s.poll accepted recvs).1 (deliver d recvs) (out ++ (s.poll accepted recvs).2)

theorem Reachable.inv {s : OrderServer} {d : ClientId → List UInt8} {out : List SequencedRequest}
    (h : Reachable s d out) : s.Inv d out := by
  induction h with
  | new => exact new_inv
  | poll accepted recvs hv _ ih => exact ih.poll accepted recvs hv

/-- **Every client's requests are the records of its stream.** Over any run of polls, the
requests returned for a client are the consecutive 30-byte records of the bytes its socket
delivered, decoded field by field; each connected client's buffer holds the trailing
`length % 30` bytes; `from_bytes` accepts every 30-byte slice, so the one-byte skip is dead;
and the sequence numbers returned run `1, 2, 3, ...`. -/
theorem Reachable.requests {s : OrderServer} {d : ClientId → List UInt8}
    {out : List SequencedRequest} (h : Reachable s d out) :
    (∀ c, (out.filter (·.clientId = c)).map (·.request) =
        (records (d c)).map ClientRequest.decode) ∧
      (∀ c conn, s.clients.lookup c = some conn →
        conn.recvBuffer = (d c).drop ((d c).length - (d c).length % clientRequestSize)) ∧
      (∀ buf : List UInt8, clientRequestSize ≤ buf.length →
        (ClientRequest.fromBytes (buf.take clientRequestSize)).isSome) ∧
      out.map (·.sequenceNumber) = List.range' 1 out.length := by
  have hi := h.inv
  exact ⟨hi.requests, hi.buffer,
    fun buf hb => by rw [ClientRequest.fromBytes_eq_some (List.length_take_of_le hb)]; rfl,
    hi.seq⟩

/-- One poll that accepts a client and receives 31 bytes from it. -/
theorem requests_one_poll :
    (([] : List SequencedRequest) ++ (new.poll [true] [(1, .data (List.replicate 31 0))]).2).map
        (·.sequenceNumber) =
      List.range' 1 (([] : List SequencedRequest) ++
        (new.poll [true] [(1, .data (List.replicate 31 0))]).2).length :=
  (Reachable.requests (.poll [true] [(1, .data (List.replicate 31 0))] (by decide) .new)).2.2.2

end OrderServer

end LowLatencyTrading
