import LowLatencyTrading.Position

/-!
# The P&L of one position over a run (`trading/src/position.rs`)

From `Position::new`, a run of `on_fill` and `update_market_price` calls keeps the books of a
mark-to-market account, up to the width of its fields. With `sᵢ` the signed quantity of fill
`i`, `pᵢ` its price and `L` the last price:

* **the position and the volume are sums**: `position` is `Σ sᵢ` wrapped to `i64`, and
  `volume_traded` is `Σ qtyᵢ` modulo `2^64`;
* **the P&L is marked to market**: every `i64` operation of `on_fill` and
  `update_unrealized_pnl` is exact modulo `2^64` (`Mod64`), and `realized_pnl − position ·
  avg_open_price` moves by `−sᵢ·pᵢ` on every fill that neither wraps the position nor truncates
  an average (`onFill_cost`). On such a run `total_pnl()` is `Σ sᵢ·(L − pᵢ)` wrapped to `i64`,
  and with the position back at 0 `realized_pnl` is `−Σ sᵢ·pᵢ` (`run_marks_to_market`).

Outside those runs the identity is lost: `total_cost / new_position.abs()` rounds toward zero,
`4 · 2^62` wraps to 0, and a position driven to `i64::MIN` closes `i64::MIN` units
(`pnl_identity_fails`).
-/

namespace LowLatencyTrading

/-! ## `i64` results modulo `2^64` -/

/-- The residues modulo `2^64`, in which every wrapping `i64` operation is exact. -/
abbrev Mod64 : Type := ZMod (2 ^ 64)

@[simp] theorem cast_i64Wrap (x : Int) : ((i64Wrap x : Int) : Mod64) = x := by
  rw [ZMod.intCast_eq_intCast_iff']
  simp only [i64Wrap, Nat.cast_pow, Nat.cast_ofNat]
  omega

theorem i64Wrap_eq_iff {x y : Int} : i64Wrap x = i64Wrap y ↔ (x : Mod64) = y := by
  rw [ZMod.intCast_eq_intCast_iff']
  simp only [i64Wrap, Nat.cast_pow, Nat.cast_ofNat]
  omega

@[simp] theorem i64Wrap_i64Wrap (x : Int) : i64Wrap (i64Wrap x) = i64Wrap x := by
  simp only [i64Wrap]; omega

theorem i64Wrap_i64Wrap_add (x y : Int) : i64Wrap (i64Wrap x + y) = i64Wrap (x + y) := by
  simp only [i64Wrap]; omega

/-- Away from `i64::MIN`, `i64::abs` is the absolute value. -/
theorem i64Abs_of_range {x : Int} (h₁ : -2 ^ 63 < x) (h₂ : x < 2 ^ 63) : i64Abs x = x.natAbs :=
  i64Wrap_of_range (by omega) (by omega)

/-! ## Runs of fills and prices -/

/-- A call on one position: a fill, or a new market price. -/
inductive PositionCall where
  | onFill (side : Side) (qty : Qty) (price : Price)
  | updateMarketPrice (price : Price)
  deriving DecidableEq, Repr

namespace PositionCall

/-- `sᵢ`: the signed quantity of a fill; a price update trades nothing. -/
def signedQty : PositionCall → Int
  | .onFill side qty _ => Position.signedQty side qty
  | .updateMarketPrice _ => 0

/-- `qtyᵢ`. -/
def qty : PositionCall → Nat
  | .onFill _ qty _ => qty
  | .updateMarketPrice _ => 0

/-- `sᵢ·pᵢ`: what a fill costs, negative for a sell. -/
def signedCost : PositionCall → Int
  | .onFill side qty price => Position.signedQty side qty * price
  | .updateMarketPrice _ => 0

/-- `sᵢ·(L − pᵢ)`: a fill's P&L marked at price `L`. -/
def markPnl (last : Price) : PositionCall → Int
  | .onFill side qty price => Position.signedQty side qty * (last - price)
  | .updateMarketPrice _ => 0

theorem sum_markPnl (last : Price) (calls : List PositionCall) :
    (calls.map (markPnl last)).sum =
      last * (calls.map signedQty).sum - (calls.map signedCost).sum := by
  induction calls with
  | nil => simp
  | cons c cs ih => cases c <;> simp only [List.map_cons, List.sum_cons, markPnl, signedQty,
      signedCost, ih] <;> ring

end PositionCall

namespace Position

/-- One call. -/
def apply (p : Position) : PositionCall → Position
  | .onFill side qty price => p.onFill side qty price
  | .updateMarketPrice price => p.updateMarketPrice price

/-- The calls one after another. -/
def run (p : Position) (calls : List PositionCall) : Position := calls.foldl apply p

@[simp] theorem run_nil (p : Position) : p.run [] = p := rfl

@[simp] theorem run_cons (p : Position) (c : PositionCall) (calls : List PositionCall) :
    p.run (c :: calls) = (p.apply c).run calls := rfl

theorem run_append (p : Position) (calls calls' : List PositionCall) :
    p.run (calls ++ calls') = (p.run calls).run calls' := List.foldl_append _ _ _ _

/-! ### The fields the updates write -/

@[simp] theorem updateUnrealizedPnl_realizedPnl (p : Position) :
    p.updateUnrealizedPnl.realizedPnl = p.realizedPnl := by
  unfold updateUnrealizedPnl; split_ifs <;> rfl

@[simp] theorem updateUnrealizedPnl_avgOpenPrice (p : Position) :
    p.updateUnrealizedPnl.avgOpenPrice = p.avgOpenPrice := by
  unfold updateUnrealizedPnl; split_ifs <;> rfl

@[simp] theorem updateUnrealizedPnl_lastPrice (p : Position) :
    p.updateUnrealizedPnl.lastPrice = p.lastPrice := by
  unfold updateUnrealizedPnl; split_ifs <;> rfl

@[simp] theorem updateUnrealizedPnl_volumeTraded (p : Position) :
    p.updateUnrealizedPnl.volumeTraded = p.volumeTraded := by
  unfold updateUnrealizedPnl; split_ifs <;> rfl

/-- The unrealized P&L is the position marked from the average price, modulo `2^64`. -/
theorem updateUnrealizedPnl_unrealizedPnl (p : Position) :
    (p.updateUnrealizedPnl.unrealizedPnl : Mod64) =
      p.position * (p.lastPrice - p.avgOpenPrice) := by
  unfold updateUnrealizedPnl
  split_ifs with h0 h1
  · simp [h0]
  · push_cast [cast_i64Wrap]
    exact mul_comm _ _
  · push_cast [cast_i64Wrap]
    rw [mul_neg, ← neg_mul, neg_sub, mul_comm]

theorem onFill_volumeTraded_lastPrice (p : Position) (side : Side) (qty : Qty) (price : Price) :
    (p.onFill side qty price).volumeTraded = (p.volumeTraded + qty) % 2 ^ 64 ∧
      (p.onFill side qty price).lastPrice = price := by
  unfold onFill
  simp only [updateUnrealizedPnl_volumeTraded, updateUnrealizedPnl_lastPrice]
  split_ifs <;> exact ⟨rfl, rfl⟩

theorem onFill_unrealizedPnl (p : Position) (side : Side) (qty : Qty) (price : Price) :
    ((p.onFill side qty price).unrealizedPnl : Mod64) = (p.onFill side qty price).position *
      ((p.onFill side qty price).lastPrice - (p.onFill side qty price).avgOpenPrice) := by
  unfold onFill
  simp only [updateUnrealizedPnl_unrealizedPnl, updateUnrealizedPnl_position,
    updateUnrealizedPnl_lastPrice, updateUnrealizedPnl_avgOpenPrice]

/-- `on_fill` writes `realized_pnl` only with an `i64` result. -/
theorem onFill_realizedPnl_wrap {p : Position} (h : i64Wrap p.realizedPnl = p.realizedPnl)
    (side : Side) (qty : Qty) (price : Price) :
    i64Wrap (p.onFill side qty price).realizedPnl = (p.onFill side qty price).realizedPnl := by
  unfold onFill
  simp only [updateUnrealizedPnl_realizedPnl]
  split_ifs <;> simp only [h, i64Wrap_i64Wrap]

/-- The position and the volume of a run are sums, wrapped. -/
theorem run_position_volume {p : Position} {S : Int} {V : Nat} (hs : p.position = i64Wrap S)
    (hv : p.volumeTraded = V % 2 ^ 64) (calls : List PositionCall) :
    (p.run calls).position = i64Wrap (S + (calls.map PositionCall.signedQty).sum) ∧
      (p.run calls).volumeTraded = (V + (calls.map PositionCall.qty).sum) % 2 ^ 64 := by
  induction calls generalizing p S V with
  | nil => simpa using ⟨hs, hv⟩
  | cons c cs ih =>
    cases c with
    | onFill side qty price =>
      obtain ⟨hv', -⟩ := onFill_volumeTraded_lastPrice p side qty price
      simpa [apply, PositionCall.signedQty, PositionCall.qty, add_assoc] using
        ih (S := S + signedQty side qty) (V := V + qty)
          (by rw [onFill_position, hs, i64Wrap_i64Wrap_add]) (by rw [hv', hv]; omega)
    | updateMarketPrice price =>
      simpa [apply, PositionCall.signedQty, PositionCall.qty] using
        ih (p := p.updateMarketPrice price) (by simpa [updateMarketPrice] using hs)
          (by simpa [updateMarketPrice] using hv)

/-! ### Clean fills -/

/-- A fill that neither wraps the position nor truncates an average: the new position lies
strictly inside the `i64` range, and when the fill adds to a nonzero position, the `total_cost`
that `on_fill` computes is a multiple of the new position's size. -/
def CleanFill (p : Position) (side : Side) (qty : Qty) (price : Price) : Prop :=
  -2 ^ 63 < p.position + signedQty side qty ∧ p.position + signedQty side qty < 2 ^ 63 ∧
    (p.position ≠ 0 →
      ¬((p.position > 0 ∧ signedQty side qty < 0) ∨ (p.position < 0 ∧ signedQty side qty > 0)) →
      i64Abs (i64Wrap (p.position + signedQty side qty)) ∣
        i64Wrap (i64Wrap (p.avgOpenPrice * i64Abs p.position) +
          i64Wrap (price * (signedQty side qty).natAbs)))

instance (p : Position) (side : Side) (qty : Qty) (price : Price) :
    Decidable (p.CleanFill side qty price) :=
  inferInstanceAs (Decidable (_ ∧ _ ∧ _))

/-- Every fill of the run is clean in the state it meets. -/
def Clean : Position → List PositionCall → Prop
  | _, [] => True
  | p, .onFill side qty price :: calls =>
    p.CleanFill side qty price ∧ Clean (p.onFill side qty price) calls
  | p, .updateMarketPrice price :: calls => Clean (p.updateMarketPrice price) calls

instance instDecidableClean : (p : Position) → (calls : List PositionCall) → Decidable (Clean p calls)
  | _, [] => isTrue trivial
  | p, .onFill side qty price :: calls =>
    have := instDecidableClean (p.onFill side qty price) calls
    inferInstanceAs (Decidable (_ ∧ _))
  | p, .updateMarketPrice price :: calls => instDecidableClean (p.updateMarketPrice price) calls

/-- **A clean fill books its cost.** `realized_pnl − position · avg_open_price` moves by `−s·p`
modulo `2^64`, in each of `on_fill`'s branches: opening, closing with or without a flip on
either side, and adding at the weighted average. -/
theorem onFill_cost {p : Position} {side : Side} {qty : Qty} {price : Price}
    (hl : -2 ^ 63 < p.position) (hu : p.position < 2 ^ 63) (hc : p.CleanFill side qty price) :
    ((p.onFill side qty price).realizedPnl -
        (p.position + signedQty side qty) * (p.onFill side qty price).avgOpenPrice : Mod64) =
      p.realizedPnl - p.position * p.avgOpenPrice - signedQty side qty * price := by
  obtain ⟨hl', hu', hdiv⟩ := hc
  have hw : i64Wrap (p.position + signedQty side qty) = p.position + signedQty side qty :=
    i64Wrap_of_range (by omega) (by omega)
  unfold onFill
  simp only [hw, i64Abs_of_range hl hu, updateUnrealizedPnl_realizedPnl,
    updateUnrealizedPnl_avgOpenPrice] at hdiv ⊢
  generalize signedQty side qty = s at *
  split_ifs at hdiv ⊢ with h0 hcl hflip hpos hpos <;> dsimp only
  · simp only [h0]; push_cast; ring
  -- closing: the quantity closed is the old position on a flip, the fill's otherwise
  · rw [show min (p.position.natAbs : ℤ) s.natAbs = p.position by omega]
    push_cast [cast_i64Wrap]; ring
  · rw [show min (p.position.natAbs : ℤ) s.natAbs = -p.position by omega]
    push_cast [cast_i64Wrap]; ring
  · rw [show min (p.position.natAbs : ℤ) s.natAbs = -s by omega]
    push_cast [cast_i64Wrap]; ring
  · rw [show min (p.position.natAbs : ℤ) s.natAbs = s by omega]
    push_cast [cast_i64Wrap]; ring
  -- adding: the exact average times the new position is the total cost
  · have hT := Int.tdiv_mul_cancel (hdiv h0 hcl)
    rw [i64Abs_of_range hl' hu'] at hT ⊢
    obtain ⟨hp, hs⟩ | ⟨hp, hs⟩ : (0 < p.position ∧ 0 ≤ s) ∨ (p.position < 0 ∧ s ≤ 0) := by
      omega
    · rw [Int.natAbs_of_nonneg (by omega : 0 ≤ p.position + s), Int.natAbs_of_nonneg hp.le,
        Int.natAbs_of_nonneg hs] at hT ⊢
      have hc := congrArg (Int.cast : ℤ → Mod64) hT
      push_cast [cast_i64Wrap] at hc ⊢
      linear_combination (-1 : Mod64) * hc
    · rw [Int.ofNat_natAbs_of_nonpos (by omega : p.position + s ≤ 0),
        Int.ofNat_natAbs_of_nonpos hp.le, Int.ofNat_natAbs_of_nonpos hs] at hT ⊢
      have hc := congrArg (Int.cast : ℤ → Mod64) hT
      push_cast [cast_i64Wrap] at hc ⊢
      linear_combination hc

/-! ### The books of a clean run -/

/-- The account after fills of signed quantities summing to `S` and signed costs summing to
`C`: the position is exactly `S`, strictly inside the `i64` range; `realized_pnl − S ·
avg_open_price` is `−C` and the unrealized P&L is `S` marked from the average price, both
modulo `2^64`; and `realized_pnl` is an `i64`. -/
structure Books (p : Position) (S C : Int) : Prop where
  position : p.position = S
  lower : -2 ^ 63 < S
  upper : S < 2 ^ 63
  cost : (p.realizedPnl - S * p.avgOpenPrice : Mod64) = -C
  unrealized : (p.unrealizedPnl : Mod64) = S * (p.lastPrice - p.avgOpenPrice)
  realized : i64Wrap p.realizedPnl = p.realizedPnl

theorem Books.new (t : TickerId) : Books (new t) 0 0 where
  position := rfl
  lower := by decide
  upper := by decide
  cost := by simp [Position.new]
  unrealized := by simp [Position.new]
  realized := rfl

section Books

variable {p : Position} {S C : Int}

theorem Books.updateMarketPrice (h : Books p S C) (price : Price) :
    Books (p.updateMarketPrice price) S C where
  position := by simpa using h.position
  lower := h.lower
  upper := h.upper
  cost := by simpa [Position.updateMarketPrice] using h.cost
  unrealized := by
    rw [Position.updateMarketPrice, updateUnrealizedPnl_unrealizedPnl, ← h.position]
    simp
  realized := by simpa [Position.updateMarketPrice] using h.realized

theorem Books.onFill (h : Books p S C) {side : Side} {qty : Qty} {price : Price}
    (hc : p.CleanFill side qty price) :
    Books (p.onFill side qty price) (S + signedQty side qty) (C + signedQty side qty * price) := by
  obtain ⟨rfl, hl, hu, hcost, -, hr⟩ := h
  have hw : i64Wrap (p.position + signedQty side qty) = p.position + signedQty side qty :=
    i64Wrap_of_range hc.1.le hc.2.1
  refine ⟨by rw [onFill_position, hw], hc.1, hc.2.1, ?_, ?_,
    onFill_realizedPnl_wrap hr side qty price⟩
  · push_cast
    rw [onFill_cost hl hu hc, hcost, neg_add']
  · rw [onFill_unrealizedPnl, onFill_position, hw]

theorem Books.run (h : Books p S C) {calls : List PositionCall} (hc : p.Clean calls) :
    Books (p.run calls) (S + (calls.map PositionCall.signedQty).sum)
      (C + (calls.map PositionCall.signedCost).sum) := by
  induction calls generalizing p S C with
  | nil => simpa using h
  | cons c cs ih =>
    cases c with
    | onFill side qty price =>
      simpa [apply, PositionCall.signedQty, PositionCall.signedCost, add_assoc] using
        ih (h.onFill hc.1) hc.2
    | updateMarketPrice price =>
      simpa [apply, PositionCall.signedQty, PositionCall.signedCost] using
        ih (h.updateMarketPrice price) hc

end Books

/-- **A position's books are a sum over its fills.** From `Position::new`, after any run of
`on_fill` and `update_market_price`: `position` is `Σ sᵢ` wrapped to `i64` and `volume_traded`
is `Σ qtyᵢ` modulo `2^64`. When no fill of the run wraps the position or truncates an average,
`total_pnl()` is `Σ sᵢ·(L − pᵢ)` for the last price `L`, wrapped to `i64`, and whenever the
position is back at 0, `realized_pnl` is `−Σ sᵢ·pᵢ`, wrapped to `i64`. -/
theorem run_marks_to_market (t : TickerId) (calls : List PositionCall) :
    ((new t).run calls).position = i64Wrap (calls.map PositionCall.signedQty).sum ∧
      ((new t).run calls).volumeTraded = (calls.map PositionCall.qty).sum % 2 ^ 64 ∧
      ((new t).Clean calls →
        ((new t).run calls).totalPnl =
            i64Wrap (calls.map (PositionCall.markPnl ((new t).run calls).lastPrice)).sum ∧
          (((new t).run calls).position = 0 →
            ((new t).run calls).realizedPnl = i64Wrap (-(calls.map PositionCall.signedCost).sum))) := by
  obtain ⟨hs, hv⟩ := run_position_volume (p := new t) (S := 0) (V := 0) rfl rfl calls
  refine ⟨by simpa using hs, by simpa using hv, fun hc => ?_⟩
  have hb := (Books.new t).run hc
  simp only [zero_add] at hb
  refine ⟨?_, fun h0 => ?_⟩
  · rw [totalPnl, i64Wrap_eq_iff, PositionCall.sum_markPnl]
    simp only [Int.cast_add, Int.cast_sub, Int.cast_mul]
    linear_combination hb.cost + hb.unrealized
  · have hS : (calls.map PositionCall.signedQty).sum = 0 := hb.position.symm.trans h0
    rw [← hb.realized, i64Wrap_eq_iff]
    have := hb.cost
    rw [hS, Int.cast_zero, zero_mul, sub_zero] at this
    rw [this, Int.cast_neg]

/-- Buying 1 at 100 and 1 at 102 averages exactly to 101; selling both at 105 realizes 8. -/
def roundTrip : List PositionCall :=
  [.onFill .buy 1 100, .onFill .buy 1 102, .onFill .sell 2 105]

theorem roundTrip_marks_to_market :
    (new 1).Clean roundTrip ∧ ((new 1).run roundTrip).totalPnl =
        i64Wrap (roundTrip.map (PositionCall.markPnl ((new 1).run roundTrip).lastPrice)).sum ∧
      ((new 1).run roundTrip).realizedPnl = i64Wrap (-(roundTrip.map PositionCall.signedCost).sum) :=
  have h := (run_marks_to_market 1 roundTrip).2.2 (by decide)
  ⟨by decide, h.1, h.2 (by decide)⟩

/-! ## Where the exact identity fails -/

/-- Buy 1 at 100, then 1 at 101: the average `201 / 2` truncates to 100. -/
def truncatingFills : List PositionCall := [.onFill .buy 1 100, .onFill .buy 1 101]

/-- Buy 4 at 0, then mark at `2^62`: the unrealized P&L `4 · 2^62` wraps to 0. -/
def wrappingMark : List PositionCall := [.onFill .buy 4 0, .updateMarketPrice (2 ^ 62)]

/-- Free buys of `q` from a long position below `i64::MAX` raise it and change nothing else. -/
theorem run_free_buys {t : TickerId} {n : Int} {v q : Nat} (hn : 0 ≤ n) (hv : v < 2 ^ 64)
    (k : Nat) (hk : n + k * q < 2 ^ 63) :
    (Position.mk t n 0 0 v 0 0 0 0).run (List.replicate k (.onFill .buy q 0)) =
      ⟨t, n + k * q, 0, 0, (v + k * q) % 2 ^ 64, 0, 0, 0, 0⟩ := by
  induction k generalizing n v with
  | zero => simp only [List.replicate_zero, run_nil, Nat.cast_zero, zero_mul, add_zero,
      Nat.mod_eq_of_lt hv]
  | succ k ih =>
    have hkq : (0 : ℤ) ≤ k * q := Int.mul_nonneg (by omega) (by omega)
    have hsucc : ((k + 1 : ℕ) : ℤ) * q = k * q + q := by push_cast; ring
    have hstep : (Position.mk t n 0 0 v 0 0 0 0).onFill .buy q 0 =
        ⟨t, n + q, 0, 0, (v + q) % 2 ^ 64, 0, 0, 0, 0⟩ := by
      have hw : i64Wrap (n + q) = n + q := i64Wrap_of_range (by omega) (by omega)
      have h0 : i64Wrap 0 = 0 := rfl
      unfold onFill updateUnrealizedPnl
      simp only [signedQty, hw, zero_mul, mul_zero, sub_self, h0, add_zero, Int.zero_tdiv]
      by_cases hn0 : n = 0
      · simp only [hn0, if_true, zero_add]
        split_ifs <;> first | omega | simp only [sub_self, h0, zero_mul]
      · have hadd : ¬((n > 0 ∧ (q : ℤ) < 0) ∨ (n < 0 ∧ (q : ℤ) > 0)) := by omega
        simp only [hn0, if_false, hadd]
        split_ifs <;> first | omega | simp only [sub_self, h0, zero_mul]
    rw [List.replicate_succ, run_cons, apply, hstep,
      ih (by omega) (Nat.mod_lt _ (by decide)) (by omega), hsucc]
    congr 1
    · ring
    · rw [Nat.add_mul, one_mul]; omega

/-- `2^32 − 1` free buys of `2^31`, one more that drives the position to `i64::MIN`, and a buy
of 1 at 1. -/
def minFills : List PositionCall :=
  List.replicate (2 ^ 32 - 1) (.onFill .buy (2 ^ 31) 0) ++
    [.onFill .buy (2 ^ 31) 0, .onFill .buy 1 1]

/-- **The exact identity fails.** After `truncatingFills`, `realized_pnl + unrealized_pnl` is 2
where `Σ sᵢ·(L − pᵢ)` is 1; after `wrappingMark` it is 0 where the sum is `2^64`; `2^33` buys of
`2^31` leave `position` and `volume_traded` at 0 where both sums are `2^64`; and after
`minFills`, whose averages are all exact, `total_pnl()` is 1 where the sum wraps to
`i64::MIN`. -/
theorem pnl_identity_fails :
    ((new 1).run truncatingFills).realizedPnl + ((new 1).run truncatingFills).unrealizedPnl = 2 ∧
      (truncatingFills.map (PositionCall.markPnl ((new 1).run truncatingFills).lastPrice)).sum = 1 ∧
      ((new 1).run wrappingMark).realizedPnl + ((new 1).run wrappingMark).unrealizedPnl = 0 ∧
      (wrappingMark.map (PositionCall.markPnl ((new 1).run wrappingMark).lastPrice)).sum = 2 ^ 64 ∧
      ((new 1).run (List.replicate (2 ^ 33) (.onFill .buy (2 ^ 31) 1))).position = 0 ∧
      ((List.replicate (2 ^ 33) (.onFill .buy (2 ^ 31) 1)).map PositionCall.signedQty).sum = 2 ^ 64 ∧
      ((new 1).run (List.replicate (2 ^ 33) (.onFill .buy (2 ^ 31) 1))).volumeTraded = 0 ∧
      ((List.replicate (2 ^ 33) (.onFill .buy (2 ^ 31) 1)).map PositionCall.qty).sum = 2 ^ 64 ∧
      ((new 1).run minFills).totalPnl = 1 ∧
      i64Wrap (minFills.map (PositionCall.markPnl ((new 1).run minFills).lastPrice)).sum =
        -2 ^ 63 := by
  obtain ⟨hs, hv⟩ := run_position_volume (p := new 1) (S := 0) (V := 0) rfl rfl
    (List.replicate (2 ^ 33) (.onFill .buy (2 ^ 31) 1))
  have hmin : (new 1).run minFills =
      ⟨1, -2 ^ 63 + 1, 0, 0, 2 ^ 63 + 1, -2 ^ 63, -2 ^ 63 + 1, 0, 1⟩ := by
    rw [minFills, run_append, show new 1 = Position.mk 1 0 0 0 0 0 0 0 0 from rfl,
      run_free_buys le_rfl (by decide) _ (by decide)]
    decide
  simp only [List.map_replicate, List.sum_replicate, smul_eq_mul, PositionCall.signedQty,
    PositionCall.qty, signedQty, zero_add] at hs hv ⊢
  refine ⟨by decide, by decide, by decide, by decide, by rw [hs]; decide, rfl, by rw [hv]; rfl,
    rfl, by rw [hmin]; decide, ?_⟩
  rw [hmin]
  simp only [minFills, List.map_append, List.map_replicate, List.sum_append, List.sum_replicate,
    List.map_cons, List.map_nil, List.sum_cons, List.sum_nil, PositionCall.markPnl, signedQty,
    smul_eq_mul]
  decide

end Position

end LowLatencyTrading
