import LowLatencyTrading.Protocol

/-!
# The records on the wire (`exchange/src/protocol.rs`)

`as_bytes` is the memory image of a `#[repr(C, packed)]` record: its fields one after another in
declaration order, little-endian, with no padding, so 30, 42 and 34 bytes for `ClientRequest`,
`ClientResponse` and `MarketUpdate`. (The doc comments above the three structs give 34-, 47- and
35-byte layouts; `size_of` gives these.) `from_bytes` (`FromBytes::ref_from`) takes a slice of
exactly the record's size, whatever its bytes, and reads the fields back.

A record value keeps each field within its Rust type (`Fits`): an unsigned field below `2^w`, a
signed one in `[-2^(w-1), 2^(w-1))`. On those values the two directions are inverse
(`wire_round_trip`): `from_bytes(as_bytes(r)) = Some r`, every slice of the record's size is the
image of the record read from it, and a slice of any other length is refused.
-/

namespace LowLatencyTrading

/-! ## Little-endian fields -/

/-- The `w` little-endian bytes of `n`; bits above `8 * w` are dropped. -/
def leBytes : Nat → Nat → List UInt8
  | 0, _ => []
  | w + 1, n => UInt8.ofNat (n % 256) :: leBytes w (n / 256)

@[simp] theorem length_leBytes (w n : Nat) : (leBytes w n).length = w := by
  induction w generalizing n with
  | zero => rfl
  | succ w ih => simp only [leBytes, List.length_cons, ih]

theorem leNat_leBytes (w n : Nat) : leNat (leBytes w n) = n % 256 ^ w := by
  induction w generalizing n with
  | zero => simp [leBytes, leNat, Nat.mod_one]
  | succ w ih =>
    rw [leBytes, leNat, ih, UInt8.toNat_ofNat_of_lt (Nat.mod_lt _ (by decide)), pow_succ',
      Nat.mod_mul]

theorem leNat_lt (l : List UInt8) : leNat l < 256 ^ l.length := by
  induction l with
  | nil => simp [leNat]
  | cons b bs ih =>
    have hb : b.toNat < 256 := b.toNat_lt_size
    rw [leNat, List.length_cons, pow_succ]
    omega

theorem leBytes_leNat (l : List UInt8) : leBytes l.length (leNat l) = l := by
  induction l with
  | nil => rfl
  | cons b bs ih =>
    have hb : b.toNat < 256 := b.toNat_lt_size
    rw [List.length_cons, leBytes, leNat]
    congr 1
    · apply UInt8.toNat.inj
      rw [UInt8.toNat_ofNat_of_lt (Nat.lt_of_lt_of_le (Nat.mod_lt _ (by decide)) (by decide))]
      omega
    · rw [Nat.add_mul_div_left _ _ (by decide), Nat.div_eq_of_lt hb, Nat.zero_add, ih]

/-- The `w`-bit two's-complement pattern of `v`, which `as_bytes` stores for a signed field. -/
def ofSigned (w : Nat) (v : Int) : Nat := (v % 2 ^ w).toNat

section Signed

/-! The records' signed fields are an `i8` and `i64`s. -/

variable {w : Nat} (hw : w = 8 ∨ w = 64)
include hw

theorem toSigned_ofSigned {v : Int} (h₁ : -2 ^ (w - 1) ≤ v) (h₂ : v < 2 ^ (w - 1)) :
    toSigned w (ofSigned w v) = v := by
  rcases hw with rfl | rfl <;> unfold toSigned ofSigned at * <;> split <;> omega

theorem ofSigned_toSigned {u : Nat} (h : u < 2 ^ w) : ofSigned w (toSigned w u) = u := by
  rcases hw with rfl | rfl <;> unfold toSigned ofSigned <;> split <;> omega

theorem ofSigned_lt (v : Int) : ofSigned w v < 2 ^ w := by
  rcases hw with rfl | rfl <;> unfold ofSigned <;> omega

theorem toSigned_mem {u : Nat} (h : u < 2 ^ w) :
    -2 ^ (w - 1) ≤ toSigned w u ∧ toSigned w u < 2 ^ (w - 1) := by
  rcases hw with rfl | rfl <;> unfold toSigned <;> split <;> omega

end Signed

/-! ## Reading a field of a concatenation -/

section Field

variable (a b : List UInt8) {off len : Nat}

theorem field_append_left (h : a.length ≤ off) :
    field (a ++ b) off len = field b (off - a.length) len := by
  simp only [field, List.drop_append_eq_append_drop, List.drop_eq_nil_of_le h, List.nil_append]

theorem field_append_zero (h : a.length = len) : field (a ++ b) 0 len = leNat a := by
  simp only [field, List.drop_zero, List.take_left' h]

theorem field_self (h : a.length = len) : field a 0 len = leNat a := by
  simpa using field_append_zero a [] h

theorem field_lt (off len : Nat) : field b off len < 256 ^ len :=
  Nat.lt_of_lt_of_le (leNat_lt _)
    (Nat.pow_le_pow_right (by decide) (by simp only [List.length_take]; omega))

/-- A field read from a slice long enough, written back, is the slice. -/
theorem leBytes_field (h : off + len ≤ b.length) : leBytes len (field b off len) = (b.drop off).take len := by
  have hl := leBytes_leNat ((b.drop off).take len)
  rwa [show ((b.drop off).take len).length = len by simp only [List.length_take, List.length_drop]; omega] at hl

theorem take_drop_append {off' m : Nat} (h : off' = off + m) (n : Nat) :
    (b.drop off).take m ++ (b.drop off').take n = (b.drop off).take (m + n) := by
  rw [List.take_add, List.drop_drop, h]

end Field

/-! ## What a codec must do -/

/-- The laws of a record's codec: the image has the record's size, a record value reads back
from its image, every slice of that size is the image of the record value read from it, and a
slice of any other length is refused. -/
structure WireLaws {α : Type} (size : Nat) (Fits : α → Prop) (asBytes : α → List UInt8)
    (fromBytes : List UInt8 → Option α) : Prop where
  length_asBytes : ∀ r, (asBytes r).length = size
  fromBytes_asBytes : ∀ r, Fits r → fromBytes (asBytes r) = some r
  asBytes_fromBytes : ∀ b, b.length = size → ∃ r, fromBytes b = some r ∧ Fits r ∧ asBytes r = b
  fromBytes_of_length_ne : ∀ b, b.length ≠ size → fromBytes b = none

/-- A `from_bytes` that decodes a slice of exactly `size` bytes has the laws once the decoder and
the image are inverse. -/
theorem WireLaws.of_decode {α : Type} {size : Nat} {Fits : α → Prop} {asBytes : α → List UInt8}
    {decode : List UInt8 → α} {fromBytes : List UInt8 → Option α}
    (hfrom : ∀ b, fromBytes b = if b.length = size then some (decode b) else none)
    (hlen : ∀ r, (asBytes r).length = size) (hdec : ∀ r, Fits r → decode (asBytes r) = r)
    (hfits : ∀ b, Fits (decode b)) (henc : ∀ b, b.length = size → asBytes (decode b) = b) :
    WireLaws size Fits asBytes fromBytes where
  length_asBytes := hlen
  fromBytes_asBytes r h := by rw [hfrom, if_pos (hlen r), hdec r h]
  asBytes_fromBytes b h := ⟨decode b, by rw [hfrom, if_pos h], hfits b, henc b h⟩
  fromBytes_of_length_ne b h := by rw [hfrom, if_neg h]

/-! ## `ClientRequest` -/

namespace ClientRequest

/-- Each field within its Rust type: `u8`, `u32`, `u32`, `u64`, `i8`, `i64`, `u32`. -/
def Fits (r : ClientRequest) : Prop :=
  r.msgType < 2 ^ 8 ∧ r.clientId < 2 ^ 32 ∧ r.tickerId < 2 ^ 32 ∧ r.orderId < 2 ^ 64 ∧
    -2 ^ 7 ≤ r.side ∧ r.side < 2 ^ 7 ∧ -2 ^ 63 ≤ r.price ∧ r.price < 2 ^ 63 ∧ r.qty < 2 ^ 32

instance : DecidablePred Fits := fun _ => inferInstanceAs (Decidable (_ ∧ _))

/-- `ClientRequest::as_bytes`. -/
def asBytes (r : ClientRequest) : List UInt8 :=
  leBytes 1 r.msgType ++ leBytes 4 r.clientId ++ leBytes 4 r.tickerId ++ leBytes 8 r.orderId ++
    leBytes 1 (ofSigned 8 r.side) ++ leBytes 8 (ofSigned 64 r.price) ++ leBytes 4 r.qty

theorem decode_asBytes {r : ClientRequest} (h : r.Fits) : decode r.asBytes = r := by
  obtain ⟨h1, h2, h3, h4, h5, h6, h7, h8, h9⟩ := h
  simp only [Nat.reducePow] at h1 h2 h3 h4 h9
  have hs : ofSigned 8 r.side < 256 := ofSigned_lt (.inl rfl) r.side
  have hp : ofSigned 64 r.price < 18446744073709551616 := ofSigned_lt (.inr rfl) r.price
  simp (disch := simp only [length_leBytes, Nat.reduceLeDiff]) only [decode, asBytes,
    List.append_assoc, field_append_zero, field_append_left, field_self, length_leBytes,
    leNat_leBytes, Nat.reduceSub, Nat.reducePow, Nat.mod_eq_of_lt hs, Nat.mod_eq_of_lt hp,
    toSigned_ofSigned (.inl rfl) h5 h6, toSigned_ofSigned (.inr rfl) h7 h8, Nat.mod_eq_of_lt h1,
    Nat.mod_eq_of_lt h2, Nat.mod_eq_of_lt h3, Nat.mod_eq_of_lt h4, Nat.mod_eq_of_lt h9]

theorem fits_decode (b : List UInt8) : (decode b).Fits := by
  have hs := toSigned_mem (.inl rfl) (field_lt b 17 1)
  have hp := toSigned_mem (.inr rfl) (field_lt b 18 8)
  exact ⟨field_lt b 0 1, field_lt b 1 4, field_lt b 5 4, field_lt b 9 8, hs.1, hs.2, hp.1, hp.2,
    field_lt b 26 4⟩

theorem asBytes_decode {b : List UInt8} (h : b.length = clientRequestSize) :
    (decode b).asBytes = b := by
  unfold clientRequestSize at h
  simp only [asBytes, decode, ofSigned_toSigned (.inl rfl) (field_lt b 17 1),
    ofSigned_toSigned (.inr rfl) (field_lt b 18 8)]
  rw [leBytes_field b (by omega), leBytes_field b (by omega), leBytes_field b (by omega),
    leBytes_field b (by omega), leBytes_field b (by omega), leBytes_field b (by omega),
    leBytes_field b (by omega), take_drop_append b rfl, take_drop_append b rfl,
    take_drop_append b rfl, take_drop_append b rfl, take_drop_append b rfl,
    take_drop_append b rfl, List.drop_zero, List.take_of_length_le (by omega)]

theorem wireLaws : WireLaws clientRequestSize Fits asBytes fromBytes :=
  .of_decode (fun _ => rfl) (fun r => by simp [asBytes, clientRequestSize])
    (fun _ => decode_asBytes) fits_decode fun _ => asBytes_decode

end ClientRequest

/-! ## `ClientResponse` -/

namespace ClientResponse

/-- Each field within its Rust type: `u8`, `u32`, `u32`, `u64`, `u64`, `i8`, `i64`, `u32`,
`u32`. -/
def Fits (r : ClientResponse) : Prop :=
  r.msgType < 2 ^ 8 ∧ r.clientId < 2 ^ 32 ∧ r.tickerId < 2 ^ 32 ∧ r.clientOrderId < 2 ^ 64 ∧
    r.marketOrderId < 2 ^ 64 ∧ -2 ^ 7 ≤ r.side ∧ r.side < 2 ^ 7 ∧ -2 ^ 63 ≤ r.price ∧
    r.price < 2 ^ 63 ∧ r.execQty < 2 ^ 32 ∧ r.leavesQty < 2 ^ 32

instance : DecidablePred Fits := fun _ => inferInstanceAs (Decidable (_ ∧ _))

/-- `ClientResponse::as_bytes`. -/
def asBytes (r : ClientResponse) : List UInt8 :=
  leBytes 1 r.msgType ++ leBytes 4 r.clientId ++ leBytes 4 r.tickerId ++
    leBytes 8 r.clientOrderId ++ leBytes 8 r.marketOrderId ++ leBytes 1 (ofSigned 8 r.side) ++
    leBytes 8 (ofSigned 64 r.price) ++ leBytes 4 r.execQty ++ leBytes 4 r.leavesQty

theorem decode_asBytes {r : ClientResponse} (h : r.Fits) : decode r.asBytes = r := by
  obtain ⟨h1, h2, h3, h4, h5, h6, h7, h8, h9, h10, h11⟩ := h
  simp only [Nat.reducePow] at h1 h2 h3 h4 h5 h10 h11
  have hs : ofSigned 8 r.side < 256 := ofSigned_lt (.inl rfl) r.side
  have hp : ofSigned 64 r.price < 18446744073709551616 := ofSigned_lt (.inr rfl) r.price
  simp (disch := simp only [length_leBytes, Nat.reduceLeDiff]) only [decode, asBytes,
    List.append_assoc, field_append_zero, field_append_left, field_self, length_leBytes,
    leNat_leBytes, Nat.reduceSub, Nat.reducePow, Nat.mod_eq_of_lt hs, Nat.mod_eq_of_lt hp,
    toSigned_ofSigned (.inl rfl) h6 h7, toSigned_ofSigned (.inr rfl) h8 h9, Nat.mod_eq_of_lt h1,
    Nat.mod_eq_of_lt h2, Nat.mod_eq_of_lt h3, Nat.mod_eq_of_lt h4, Nat.mod_eq_of_lt h5,
    Nat.mod_eq_of_lt h10, Nat.mod_eq_of_lt h11]

theorem fits_decode (b : List UInt8) : (decode b).Fits := by
  have hs := toSigned_mem (.inl rfl) (field_lt b 25 1)
  have hp := toSigned_mem (.inr rfl) (field_lt b 26 8)
  exact ⟨field_lt b 0 1, field_lt b 1 4, field_lt b 5 4, field_lt b 9 8, field_lt b 17 8, hs.1,
    hs.2, hp.1, hp.2, field_lt b 34 4, field_lt b 38 4⟩

theorem asBytes_decode {b : List UInt8} (h : b.length = clientResponseSize) :
    (decode b).asBytes = b := by
  unfold clientResponseSize at h
  simp only [asBytes, decode, ofSigned_toSigned (.inl rfl) (field_lt b 25 1),
    ofSigned_toSigned (.inr rfl) (field_lt b 26 8)]
  rw [leBytes_field b (by omega), leBytes_field b (by omega), leBytes_field b (by omega),
    leBytes_field b (by omega), leBytes_field b (by omega), leBytes_field b (by omega),
    leBytes_field b (by omega), leBytes_field b (by omega), leBytes_field b (by omega),
    take_drop_append b rfl, take_drop_append b rfl, take_drop_append b rfl,
    take_drop_append b rfl, take_drop_append b rfl, take_drop_append b rfl,
    take_drop_append b rfl, take_drop_append b rfl, List.drop_zero,
    List.take_of_length_le (by omega)]

theorem wireLaws : WireLaws clientResponseSize Fits asBytes fromBytes :=
  .of_decode (fun _ => rfl) (fun r => by simp [asBytes, clientResponseSize])
    (fun _ => decode_asBytes) fits_decode fun _ => asBytes_decode

end ClientResponse

/-! ## `MarketUpdate` -/

/-- `MARKET_UPDATE_SIZE = size_of::<MarketUpdate>()`: `1 + 4 + 8 + 1 + 8 + 4 + 8`. -/
def marketUpdateSize : Nat := 34

namespace MarketUpdate

/-- The fields of a `MarketUpdate`, read from its packed layout. -/
def decode (bytes : List UInt8) : MarketUpdate :=
  ⟨field bytes 0 1, field bytes 1 4, field bytes 5 8, toSigned 8 (field bytes 13 1),
    toSigned 64 (field bytes 14 8), field bytes 22 4, field bytes 26 8⟩

/-- `MarketUpdate::from_bytes`: a slice of exactly `MARKET_UPDATE_SIZE` bytes. -/
def fromBytes (bytes : List UInt8) : Option MarketUpdate :=
  if bytes.length = marketUpdateSize then some (decode bytes) else none

/-- Each field within its Rust type: `u8`, `u32`, `u64`, `i8`, `i64`, `u32`, `u64`. -/
def Fits (u : MarketUpdate) : Prop :=
  u.msgType < 2 ^ 8 ∧ u.tickerId < 2 ^ 32 ∧ u.orderId < 2 ^ 64 ∧ -2 ^ 7 ≤ u.side ∧
    u.side < 2 ^ 7 ∧ -2 ^ 63 ≤ u.price ∧ u.price < 2 ^ 63 ∧ u.qty < 2 ^ 32 ∧ u.priority < 2 ^ 64

instance : DecidablePred Fits := fun _ => inferInstanceAs (Decidable (_ ∧ _))

/-- `MarketUpdate::as_bytes`. -/
def asBytes (u : MarketUpdate) : List UInt8 :=
  leBytes 1 u.msgType ++ leBytes 4 u.tickerId ++ leBytes 8 u.orderId ++
    leBytes 1 (ofSigned 8 u.side) ++ leBytes 8 (ofSigned 64 u.price) ++ leBytes 4 u.qty ++
    leBytes 8 u.priority

theorem decode_asBytes {u : MarketUpdate} (h : u.Fits) : decode u.asBytes = u := by
  obtain ⟨h1, h2, h3, h4, h5, h6, h7, h8, h9⟩ := h
  simp only [Nat.reducePow] at h1 h2 h3 h8 h9
  have hs : ofSigned 8 u.side < 256 := ofSigned_lt (.inl rfl) u.side
  have hp : ofSigned 64 u.price < 18446744073709551616 := ofSigned_lt (.inr rfl) u.price
  simp (disch := simp only [length_leBytes, Nat.reduceLeDiff]) only [decode, asBytes,
    List.append_assoc, field_append_zero, field_append_left, field_self, length_leBytes,
    leNat_leBytes, Nat.reduceSub, Nat.reducePow, Nat.mod_eq_of_lt hs, Nat.mod_eq_of_lt hp,
    toSigned_ofSigned (.inl rfl) h4 h5, toSigned_ofSigned (.inr rfl) h6 h7, Nat.mod_eq_of_lt h1,
    Nat.mod_eq_of_lt h2, Nat.mod_eq_of_lt h3, Nat.mod_eq_of_lt h8, Nat.mod_eq_of_lt h9]

theorem fits_decode (b : List UInt8) : (decode b).Fits := by
  have hs := toSigned_mem (.inl rfl) (field_lt b 13 1)
  have hp := toSigned_mem (.inr rfl) (field_lt b 14 8)
  exact ⟨field_lt b 0 1, field_lt b 1 4, field_lt b 5 8, hs.1, hs.2, hp.1, hp.2, field_lt b 22 4,
    field_lt b 26 8⟩

theorem asBytes_decode {b : List UInt8} (h : b.length = marketUpdateSize) :
    (decode b).asBytes = b := by
  unfold marketUpdateSize at h
  simp only [asBytes, decode, ofSigned_toSigned (.inl rfl) (field_lt b 13 1),
    ofSigned_toSigned (.inr rfl) (field_lt b 14 8)]
  rw [leBytes_field b (by omega), leBytes_field b (by omega), leBytes_field b (by omega),
    leBytes_field b (by omega), leBytes_field b (by omega), leBytes_field b (by omega),
    leBytes_field b (by omega), take_drop_append b rfl, take_drop_append b rfl,
    take_drop_append b rfl, take_drop_append b rfl, take_drop_append b rfl,
    take_drop_append b rfl, List.drop_zero, List.take_of_length_le (by omega)]

theorem wireLaws : WireLaws marketUpdateSize Fits asBytes fromBytes :=
  .of_decode (fun _ => rfl) (fun u => by simp [asBytes, marketUpdateSize])
    (fun _ => decode_asBytes) fits_decode fun _ => asBytes_decode

end MarketUpdate

/-- **The three records round-trip through their bytes.** `ClientRequest`, `ClientResponse` and
`MarketUpdate` have 30-, 42- and 34-byte images; `from_bytes` reads every record value back from
its image; every slice of the record's size is the image of the record value `from_bytes` reads
from it; and `from_bytes` refuses a slice of any other length. -/
theorem wire_round_trip :
    WireLaws 30 ClientRequest.Fits ClientRequest.asBytes ClientRequest.fromBytes ∧
      WireLaws 42 ClientResponse.Fits ClientResponse.asBytes ClientResponse.fromBytes ∧
      WireLaws 34 MarketUpdate.Fits MarketUpdate.asBytes MarketUpdate.fromBytes :=
  ⟨ClientRequest.wireLaws, ClientResponse.wireLaws, MarketUpdate.wireLaws⟩

/-- A `New` for 10 at 100 reads back from its 30 bytes. -/
theorem new_request_round_trip :
    ClientRequest.fromBytes (ClientRequest.new .new 7 1 42 1 100 10).asBytes =
      some (ClientRequest.new .new 7 1 42 1 100 10) :=
  wire_round_trip.1.fromBytes_asBytes _ (by decide)

end LowLatencyTrading
