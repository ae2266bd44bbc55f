import LowLatencyTrading.Basic

/-!
# The exchange protocol (`exchange/src/protocol.rs`)

The three message records and their type tags. A record keeps the wire value of each field: the
type tag as its `u8`, the side as its `i8`.

Each record is `#[repr(C, packed)]`, so its bytes are its fields one after another,
little-endian, with no padding, and `from_bytes` (`FromBytes::ref_from`) accepts a slice of
exactly the record's size whatever its bytes are. The exchange reads requests from bytes
(`ClientConnection::receive`) and the order gateway reads responses (`OrderGateway::poll`), so
those two readers are here; `Codec` adds the images `as_bytes` writes, the market update's
reader, and the laws that tie each image to its reader.
-/

namespace LowLatencyTrading

/-! ## Type tags -/

/-- `ClientRequestType`. -/
inductive ClientRequestType where
  | new
  | cancel
  deriving DecidableEq, Repr

/-- `ClientResponseType`. -/
inductive ClientResponseType where
  | accepted
  | canceled
  | filled
  | cancelRejected
  | invalidRequest
  deriving DecidableEq, Repr

/-- `MarketUpdateType`. -/
inductive MarketUpdateType where
  | add
  | modify
  | cancel
  | trade
  | snapshot
  | clear
  deriving DecidableEq, Repr

namespace ClientRequestType

/-- `msg_type as u8`. -/
def toU8 : ClientRequestType → Nat
  | new => 1
  | cancel => 2

/-- `ClientRequestType::from_u8`. -/
def fromU8 : Nat → Option ClientRequestType
  | 1 => some new
  | 2 => some cancel
  | _ => none

@[simp] theorem fromU8_toU8 (t : ClientRequestType) : fromU8 t.toU8 = some t := by
  cases t <;> rfl

end ClientRequestType

namespace ClientResponseType

/-- `msg_type as u8`. -/
def toU8 : ClientResponseType → Nat
  | accepted => 1
  | canceled => 2
  | filled => 3
  | cancelRejected => 4
  | invalidRequest => 5

/-- `ClientResponseType::from_u8`. -/
def fromU8 : Nat → Option ClientResponseType
  | 1 => some accepted
  | 2 => some canceled
  | 3 => some filled
  | 4 => some cancelRejected
  | 5 => some invalidRequest
  | _ => none

@[simp] theorem fromU8_toU8 (t : ClientResponseType) : fromU8 t.toU8 = some t := by
  cases t <;> rfl

@[simp] theorem toU8_inj {a b : ClientResponseType} : a.toU8 = b.toU8 ↔ a = b := by
  cases a <;> cases b <;> decide

end ClientResponseType

namespace MarketUpdateType

/-- `msg_type as u8`. -/
def toU8 : MarketUpdateType → Nat
  | add => 1
  | modify => 2
  | cancel => 3
  | trade => 4
  | snapshot => 5
  | clear => 6

/-- `MarketUpdateType::from_u8`. -/
def fromU8 : Nat → Option MarketUpdateType
  | 1 => some add
  | 2 => some modify
  | 3 => some cancel
  | 4 => some trade
  | 5 => some snapshot
  | 6 => some clear
  | _ => none

@[simp] theorem fromU8_toU8 (t : MarketUpdateType) : fromU8 t.toU8 = some t := by
  cases t <;> rfl

@[simp] theorem toU8_inj {a b : MarketUpdateType} : a.toU8 = b.toU8 ↔ a = b := by
  cases a <;> cases b <;> decide

end MarketUpdateType

/-! ## Records -/

/-- `ClientRequest`. -/
structure ClientRequest where
  msgType : Nat
  clientId : ClientId
  tickerId : TickerId
  orderId : OrderId
  side : Int
  price : Price
  qty : Qty
  deriving DecidableEq, Repr

/-- `ClientRequest::new`. -/
def ClientRequest.new (msgType : ClientRequestType) (clientId : ClientId) (tickerId : TickerId)
    (orderId : OrderId) (side : Int) (price : Price) (qty : Qty) : ClientRequest :=
  ⟨msgType.toU8, clientId, tickerId, orderId, side, price, qty⟩

/-- `ClientResponse`. -/
structure ClientResponse where
  msgType : Nat
  clientId : ClientId
  tickerId : TickerId
  clientOrderId : OrderId
  marketOrderId : OrderId
  side : Int
  price : Price
  execQty : Qty
  leavesQty : Qty
  deriving DecidableEq, Repr

/-- `ClientResponse::new`. -/
def ClientResponse.new (msgType : ClientResponseType) (clientId : ClientId) (tickerId : TickerId)
    (clientOrderId marketOrderId : OrderId) (side : Int) (price : Price) (execQty leavesQty : Qty) :
    ClientResponse :=
  ⟨msgType.toU8, clientId, tickerId, clientOrderId, marketOrderId, side, price, execQty, leavesQty⟩

@[simp] theorem ClientResponse.new_msgType (t : ClientResponseType) (c : ClientId)
    (tk : TickerId) (co mo : OrderId) (s : Int) (p : Price) (e l : Qty) :
    (ClientResponse.new t c tk co mo s p e l).msgType = t.toU8 := rfl

/-- `MarketUpdate`. -/
structure MarketUpdate where
  msgType : Nat
  tickerId : TickerId
  orderId : OrderId
  side : Int
  price : Price
  qty : Qty
  priority : Priority
  deriving DecidableEq, Repr

/-- `MarketUpdate::new`. -/
def MarketUpdate.new (msgType : MarketUpdateType) (tickerId : TickerId) (orderId : OrderId)
    (side : Int) (price : Price) (qty : Qty) (priority : Priority) : MarketUpdate :=
  ⟨msgType.toU8, tickerId, orderId, side, price, qty, priority⟩

@[simp] theorem MarketUpdate.new_msgType (t : MarketUpdateType) (tk : TickerId) (id : OrderId)
    (s : Int) (p : Price) (q : Qty) (pr : Priority) :
    (MarketUpdate.new t tk id s p q pr).msgType = t.toU8 := rfl

@[simp] theorem MarketUpdate.new_tickerId (t : MarketUpdateType) (tk : TickerId) (id : OrderId)
    (s : Int) (p : Price) (q : Qty) (pr : Priority) :
    (MarketUpdate.new t tk id s p q pr).tickerId = tk := rfl

/-! ## The request on the wire -/

/-- `CLIENT_REQUEST_SIZE = size_of::<ClientRequest>()`: `1 + 4 + 4 + 8 + 1 + 8 + 4`. -/
def clientRequestSize : Nat := 30

/-- The unsigned little-endian value of `bytes`. -/
def leNat : List UInt8 → Nat
  | [] => 0
  | b :: bs => b.toNat + 256 * leNat bs

/-- The two's-complement value of a `w`-bit pattern `v`. -/
def toSigned (w v : Nat) : Int := if v < 2 ^ (w - 1) then v else (v : Int) - 2 ^ w

/-- The `len` bytes at offset `off`, read as an unsigned little-endian field. -/
def field (bytes : List UInt8) (off len : Nat) : Nat := leNat ((bytes.drop off).take len)

/-- The fields of a `ClientRequest`, read from its packed layout. -/
def ClientRequest.decode (bytes : List UInt8) : ClientRequest :=
  ⟨field bytes 0 1, field bytes 1 4, field bytes 5 4, field bytes 9 8,
    toSigned 8 (field bytes 17 1), toSigned 64 (field bytes 18 8), field bytes 26 4⟩

/-- `ClientRequest::from_bytes`: a slice of exactly `CLIENT_REQUEST_SIZE` bytes, whatever they
are. -/
def ClientRequest.fromBytes (bytes : List UInt8) : Option ClientRequest :=
  if bytes.length = clientRequestSize then some (ClientRequest.decode bytes) else none

theorem ClientRequest.fromBytes_eq_some {bytes : List UInt8}
    (h : bytes.length = clientRequestSize) :
    ClientRequest.fromBytes bytes = some (ClientRequest.decode bytes) := if_pos h

/-! ## The response on the wire -/

/-- `CLIENT_RESPONSE_SIZE = size_of::<ClientResponse>()`: `1 + 4 + 4 + 8 + 8 + 1 + 8 + 4 + 4`. -/
def clientResponseSize : Nat := 42

/-- The fields of a `ClientResponse`, read from its packed layout. -/
def ClientResponse.decode (bytes : List UInt8) : ClientResponse :=
  ⟨field bytes 0 1, field bytes 1 4, field bytes 5 4, field bytes 9 8, field bytes 17 8,
    toSigned 8 (field bytes 25 1), toSigned 64 (field bytes 26 8), field bytes 34 4,
    field bytes 38 4⟩

/-- `ClientResponse::from_bytes`: a slice of exactly `CLIENT_RESPONSE_SIZE` bytes. -/
def ClientResponse.fromBytes (bytes : List UInt8) : Option ClientResponse :=
  if bytes.length = clientResponseSize then some (ClientResponse.decode bytes) else none

/-- `ClientResponse::response_type`. -/
def ClientResponse.responseType (r : ClientResponse) : Option ClientResponseType :=
  ClientResponseType.fromU8 r.msgType

end LowLatencyTrading
