import Mathlib

/-!
# Scalars, sides and fixed-width arithmetic

The vocabulary of `common/src/types.rs`, and the machine arithmetic the other modules use.
A fixed-width integer is a `Nat` or an `Int`; each operation the Rust code performs on one is
written with its release-build behaviour (wrapping), so that the width shows where it matters:

* `u32Add` / `u32Sub` — `+=` / `-=` on `Qty`;
* `usizeAdd` / `usizeSub` — `wrapping_add` / `wrapping_sub` on a 64-bit `usize`;
* `i64Wrap` — the result of an `i64` operation.

Identifiers that the code advances by one per request (`OrderId`, `Priority`, sequence numbers)
are unbounded: their width is reached only after `2^64` requests.

A `HashMap K V` is an association list with distinct keys (`AList`), which carries its own
well-formedness; its iteration order is the list order.
-/

namespace LowLatencyTrading

/-- `OrderId: u64`. -/
abbrev OrderId := Nat
/-- `TickerId: u32`. -/
abbrev TickerId := Nat
/-- `ClientId: u32`. -/
abbrev ClientId := Nat
/-- `Price: i64`, fixed point in minor units. -/
abbrev Price := Int
/-- `Qty: u32`. -/
abbrev Qty := Nat
/-- `Priority: u64`. -/
abbrev Priority := Nat

/-- `INVALID_PRICE = i64::MAX`. -/
def invalidPrice : Price := 2 ^ 63 - 1

/-- `Side` (`#[repr(i8)]`: `Buy = 1`, `Sell = -1`). -/
inductive Side where
  | buy
  | sell
  deriving DecidableEq, Repr, Inhabited

namespace Side

/-- `Side::opposite`. -/
def opposite : Side → Side
  | buy => sell
  | sell => buy

/-- `Side::as_sign`; also the byte written by `side as i8`. -/
def asSign : Side → Int
  | buy => 1
  | sell => -1

@[simp] theorem asSign_buy : buy.asSign = 1 := rfl
@[simp] theorem asSign_sell : sell.asSign = -1 := rfl

theorem asSign_inj {a b : Side} : a.asSign = b.asSign ↔ a = b := by
  cases a <;> cases b <;> decide

end Side

/-! ## Fixed-width arithmetic -/

/-- `a + b` on `u32`, wrapping. -/
def u32Add (a b : Nat) : Nat := (a + b) % 2 ^ 32

/-- `a - b` on `u32`, wrapping. -/
def u32Sub (a b : Nat) : Nat := (a + (2 ^ 32 - b % 2 ^ 32)) % 2 ^ 32

/-- `wrapping_add` on a 64-bit `usize`. -/
def usizeAdd (a b : Nat) : Nat := (a + b) % 2 ^ 64

/-- `wrapping_sub` on a 64-bit `usize`. -/
def usizeSub (a b : Nat) : Nat := (a + (2 ^ 64 - b % 2 ^ 64)) % 2 ^ 64

/-- The `i64` an operation returns: its integer result reduced into `[-2^63, 2^63)`. -/
def i64Wrap (x : Int) : Int := (x + 2 ^ 63) % 2 ^ 64 - 2 ^ 63

theorem u32Add_mod (s q : Nat) : u32Add (s % 2 ^ 32) q = (s + q) % 2 ^ 32 := by
  simp only [u32Add]; omega

/-- Subtracting a summand undoes adding it, modulo `2^32`. -/
theorem u32Sub_mod (s q : Nat) : u32Sub ((s + q) % 2 ^ 32) q = s % 2 ^ 32 := by
  simp only [u32Sub]; omega

/-- Inside the `i64` range, wrapping changes nothing. -/
theorem i64Wrap_of_range {x : Int} (h₁ : -2 ^ 63 ≤ x) (h₂ : x < 2 ^ 63) : i64Wrap x = x := by
  simp only [i64Wrap]; omega

/-- A wrapped result is an `i64`. -/
theorem i64Wrap_mem (x : Int) : -2 ^ 63 ≤ i64Wrap x ∧ i64Wrap x < 2 ^ 63 := by
  simp only [i64Wrap]; omega

/-- `std::collections::HashMap<K, V>`: an association list with distinct keys. -/
abbrev HashMap (K V : Type) : Type := AList fun _ : K => V

end LowLatencyTrading

/-! ## Hash-map operations

What the model needs of a `HashMap` beyond `AList`'s `lookup`, `insert` and `erase`: its
length and sums over its values, with how they change under `insert` and `erase`, and
`entry(k).or_insert(v)`. -/

namespace AList

variable {K V : Type}

/-- `HashMap::len`. -/
def len (m : AList fun _ : K => V) : Nat := m.entries.length

/-- The sum of `f` over the values of `m`. -/
def sumBy (m : AList fun _ : K => V) (f : V → Nat) : Nat := (m.entries.map fun e => f e.2).sum

theorem len_eq_sumBy (m : AList fun _ : K => V) : m.len = m.sumBy fun _ => 1 := by
  simp only [len, sumBy]
  generalize m.entries = l
  induction l with
  | nil => rfl
  | cons e l ih => simp only [List.length_cons, List.map_cons, List.sum_cons, ih]; omega

variable [DecidableEq K]

theorem sumBy_insert (m : AList fun _ : K => V) (k : K) (v : V) (f : V → Nat) :
    (m.insert k v).sumBy f = f v + (m.erase k).sumBy f := rfl

/-- A present key's entry, put first, and the entries of the map without it. -/
theorem entries_perm_erase {m : AList fun _ : K => V} {k : K} {v : V} (h : m.lookup k = some v) :
    m.entries.Perm (⟨k, v⟩ :: (m.erase k).entries) := by
  obtain ⟨l, nd⟩ := m
  simp only [erase, lookup] at h ⊢
  induction l with
  | nil => simp at h
  | cons e l ih =>
    obtain ⟨k', v'⟩ := e
    by_cases hk : k = k'
    · subst hk
      simp only [List.dlookup_cons_eq, Option.some.injEq] at h
      simp [h, List.kerase_cons_eq]
    · have hk' : k ≠ (⟨k', v'⟩ : (_ : K) × V).1 := hk
      rw [List.dlookup_cons_ne l _ hk'] at h
      rw [List.kerase_cons_ne hk']
      exact ((ih (List.nodupKeys_cons.mp nd).2 h).cons _).trans (List.Perm.swap _ _ _)

/-- Removing a present key takes its value out of the sum. -/
theorem sumBy_of_lookup {m : AList fun _ : K => V} {k : K} {v : V} (h : m.lookup k = some v)
    (f : V → Nat) : m.sumBy f = f v + (m.erase k).sumBy f := by
  simp only [sumBy, ((entries_perm_erase h).map _).sum_eq, List.map_cons, List.sum_cons]

theorem erase_of_not_mem {m : AList fun _ : K => V} {k : K} (h : k ∉ m) : m.erase k = m :=
  ext (List.kerase_of_not_mem_keys h)

theorem len_insert_of_not_mem {m : AList fun _ : K => V} {k : K} (h : k ∉ m) (v : V) :
    (m.insert k v).len = m.len + 1 := by
  rw [len_eq_sumBy, sumBy_insert, erase_of_not_mem h, ← len_eq_sumBy]; omega

/-- `entry(k).or_insert(v)`: `v` at `k` unless `k` is present. -/
def orInsert (m : AList fun _ : K => V) (k : K) (v : V) : AList fun _ : K => V :=
  if k ∈ m then m else m.insert k v

theorem lookup_orInsert (m : AList fun _ : K => V) (k : K) (v : V) (k' : K) :
    (m.orInsert k v).lookup k' = if k' = k then some ((m.lookup k).getD v) else m.lookup k' := by
  unfold orInsert
  split_ifs with hm hk hk
  · subst hk
    obtain ⟨x, hx⟩ := Option.isSome_iff_exists.mp (lookup_isSome.mpr hm)
    rw [hx, Option.getD_some]
  · rfl
  · subst hk
    rw [lookup_insert, lookup_eq_none.mpr hm, Option.getD_none]
  · exact lookup_insert_ne hk

theorem len_erase_of_lookup {m : AList fun _ : K => V} {k : K} {v : V}
    (h : m.lookup k = some v) : (m.erase k).len + 1 = m.len := by
  rw [len_eq_sumBy m, sumBy_of_lookup h, ← len_eq_sumBy]; omega

end AList
